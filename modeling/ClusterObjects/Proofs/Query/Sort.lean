import ClusterObjects.Query.Listing

/-! # Stable sorting

Sorting puts a thing behind everything that it does not precede. If precedence is a strict weak
order on the things, nothing in the result precedes anything that comes earlier, and things
that tie come in the order in which they were given. There is only one such order of the things,
so leaving some out before sorting is the same as leaving them out after it.
-/

namespace ClusterObjects.Listing

variable {α : Type} {among : α → Prop}

section Sorting

variable {precedes : α → α → Bool} {given : α → α → Prop}

/-- Precedence is a strict weak order among some things. -/
structure WeakOrder (precedes : α → α → Bool) (among : α → Prop) : Prop where
  asymm : ∀ x y, among x → among y → precedes x y = true → precedes y x = false
  tied : ∀ x y z, among x → among y → among z → precedes x y = false → precedes y z = false →
    precedes x z = false

/-- One thing comes before another: the other does not precede it, and if it does not precede
the other either, it was given first. -/
def Ahead (precedes : α → α → Bool) (given : α → α → Prop) (x y : α) : Prop :=
  precedes y x = false ∧ (precedes x y = true ∨ given x y)

theorem WeakOrder.ahead (h : WeakOrder precedes among) {x y : α} (hx : among x) (hy : among y)
    (hprecedes : precedes x y = true) : Ahead precedes given x y :=
  ⟨h.asymm x y hx hy hprecedes, Or.inl hprecedes⟩

/-- A thing that is given after all things in place is put where it belongs; the things in place
are listed from the last to the first. -/
theorem pairwise_insertBack (h : WeakOrder precedes among) {x : α} (hx : among x)
    {sorted : List α} (hamong : ∀ y ∈ sorted, among y) (hgiven : ∀ y ∈ sorted, given y x)
    (hsorted : sorted.Pairwise fun later earlier => Ahead precedes given earlier later) :
    (insertBack precedes x sorted).Pairwise fun later earlier =>
      Ahead precedes given earlier later := by
  induction sorted with
  | nil => exact List.pairwise_singleton _ _
  | cons y rest ih =>
    obtain ⟨hy, hrest⟩ := List.forall_mem_cons.mp hamong
    obtain ⟨hgivenY, hgivenRest⟩ := List.forall_mem_cons.mp hgiven
    obtain ⟨hlast, hsortedRest⟩ := List.pairwise_cons.mp hsorted
    unfold insertBack
    split
    next hprecedes =>
      refine List.pairwise_cons.mpr ⟨fun z hz => ?_, ih hrest hgivenRest hsortedRest⟩
      rcases List.mem_cons.mp ((insertBack_perm precedes x rest).mem_iff.mp hz) with rfl | hz
      · exact h.ahead hx hy hprecedes
      · exact hlast z hz
    next hbehind =>
      -- What `x` does not precede at the end, it does not precede further to the front.
      have hnot : ∀ z ∈ y :: rest, precedes x z = false := by
        refine List.forall_mem_cons.mpr ⟨Bool.eq_false_iff.mpr hbehind, fun z hz => ?_⟩
        exact h.tied x y z hx hy (hrest z hz) (Bool.eq_false_iff.mpr hbehind) (hlast z hz).1
      exact List.pairwise_cons.mpr
        ⟨fun z hz => ⟨hnot z hz, Or.inr (hgiven z hz)⟩, hsorted⟩

/-- Putting things in place one after another keeps all of them in order. -/
theorem pairwise_foldl_insertBack (h : WeakOrder precedes among) {things sorted : List α}
    (hthings : ∀ x ∈ things, among x) (hamong : ∀ y ∈ sorted, among y)
    (hgiven : things.Pairwise given) (hbefore : ∀ y ∈ sorted, ∀ x ∈ things, given y x)
    (hsorted : sorted.Pairwise fun later earlier => Ahead precedes given earlier later) :
    (things.foldl (fun sorted x => insertBack precedes x sorted) sorted).Pairwise
      fun later earlier => Ahead precedes given earlier later := by
  induction things generalizing sorted with
  | nil => exact hsorted
  | cons x rest ih =>
    obtain ⟨hx, hrest⟩ := List.forall_mem_cons.mp hthings
    obtain ⟨hgivenX, hgivenRest⟩ := List.pairwise_cons.mp hgiven
    have hmem := fun y => (insertBack_perm precedes x sorted).mem_iff (a := y)
    refine ih hrest (fun y hy => ?_) hgivenRest (fun y hy => ?_) ?_
    · rcases List.mem_cons.mp ((hmem y).mp hy) with rfl | hy
      · exact hx
      · exact hamong y hy
    · rcases List.mem_cons.mp ((hmem y).mp hy) with rfl | hy
      · exact hgivenX
      · exact fun later hlater => hbefore y hy later (List.mem_cons_of_mem _ hlater)
    · exact pairwise_insertBack h hx hamong
        (fun y hy => hbefore y hy x List.mem_cons_self) hsorted

/-- Sorting things that are given in some order keeps that order where precedence leaves it
open. -/
theorem pairwise_sort (h : WeakOrder precedes among) {things : List α}
    (hthings : ∀ x ∈ things, among x) (hgiven : things.Pairwise given) :
    (sort precedes things).Pairwise (Ahead precedes given) := by
  refine List.pairwise_reverse.mpr ?_
  exact pairwise_foldl_insertBack h hthings (List.forall_mem_nil _) hgiven
    (List.forall_mem_nil _) List.Pairwise.nil

/-! ## Stability -/

/-- Neither of two things precedes the other. -/
def ties (precedes : α → α → Bool) (x y : α) : Bool := !precedes x y && !precedes y x

/-- What sorting stably gives: the given things, none of which precedes an earlier one, and those
that tie with any of them in the order in which they were given. -/
structure StablySorted (precedes : α → α → Bool) (given sorted : List α) : Prop where
  perm : sorted.Perm given
  ordered : sorted.Pairwise fun x y => precedes y x = false
  stable : ∀ x ∈ given, sorted.filter (ties precedes x) = given.filter (ties precedes x)

theorem ties_iff {x y : α} :
    ties precedes x y = true ↔ precedes x y = false ∧ precedes y x = false := by
  rw [ties, Bool.and_eq_true, Bool.not_eq_true', Bool.not_eq_true']

theorem WeakOrder.mono {within : α → Prop} (h : WeakOrder precedes among)
    (hwithin : ∀ x, within x → among x) : WeakOrder precedes within :=
  ⟨fun x y hx hy => h.asymm x y (hwithin x hx) (hwithin y hy),
    fun x y z hx hy hz => h.tied x y z (hwithin x hx) (hwithin y hy) (hwithin z hz)⟩

/-- The reverse of a strict weak order is one as well. -/
theorem WeakOrder.flip (h : WeakOrder precedes among) :
    WeakOrder (fun x y => precedes y x) among :=
  ⟨fun x y hx hy => h.asymm y x hy hx,
    fun x y z hx hy hz hxy hyz => h.tied z y x hz hy hx hyz hxy⟩

theorem WeakOrder.irrefl (h : WeakOrder precedes among) {x : α} (hx : among x) :
    precedes x x = false := by
  rw [← Bool.not_eq_true]
  intro hself
  exact absurd hself (Bool.eq_false_iff.mp (h.asymm x x hx hx hself))

theorem WeakOrder.ties_self (h : WeakOrder precedes among) {x : α} (hx : among x) :
    ties precedes x x = true :=
  ties_iff.mpr ⟨h.irrefl hx, h.irrefl hx⟩

/-- Of things that tie with the same thing none precedes another. -/
theorem WeakOrder.not_precedes_of_ties (h : WeakOrder precedes among) {a x y : α} (ha : among a)
    (hx : among x) (hy : among y) (htiesX : ties precedes a x = true)
    (htiesY : ties precedes a y = true) : precedes x y = false :=
  h.tied x a y hx ha hy (ties_iff.mp htiesX).2 (ties_iff.mp htiesY).1

/-- A thing is put behind all those in place that tie with it. -/
theorem filter_insertBack (h : WeakOrder precedes among) {a x : α} (ha : among a) (hx : among x)
    {sorted : List α} (hamong : ∀ y ∈ sorted, among y) :
    (insertBack precedes x sorted).filter (ties precedes a) =
      (x :: sorted).filter (ties precedes a) := by
  induction sorted with
  | nil => rfl
  | cons y rest ih =>
    obtain ⟨hy, hrest⟩ := List.forall_mem_cons.mp hamong
    unfold insertBack
    split
    next hprecedes =>
      -- It passes nothing that ties with the same things.
      have hnot : ¬ (ties precedes a x = true ∧ ties precedes a y = true) := by
        rintro ⟨htiesX, htiesY⟩
        rw [h.not_precedes_of_ties ha hx hy htiesX htiesY] at hprecedes
        contradiction
      rw [List.filter_cons, ih hrest, List.filter_cons, List.filter_cons, List.filter_cons]
      cases htiesX : ties precedes a x <;> cases htiesY : ties precedes a y <;> simp_all
    next => rfl

theorem filter_foldl_insertBack (h : WeakOrder precedes among) {a : α} (ha : among a)
    {things sorted : List α} (hthings : ∀ x ∈ things, among x) (hamong : ∀ y ∈ sorted, among y) :
    (things.foldl (fun sorted x => insertBack precedes x sorted) sorted).filter
      (ties precedes a) = (things.reverse ++ sorted).filter (ties precedes a) := by
  induction things generalizing sorted with
  | nil => rfl
  | cons x rest ih =>
    obtain ⟨hx, hrest⟩ := List.forall_mem_cons.mp hthings
    have hplaced : ∀ y ∈ insertBack precedes x sorted, among y := fun y hy =>
      List.forall_mem_cons.mpr ⟨hx, hamong⟩ y ((insertBack_perm precedes x sorted).mem_iff.mp hy)
    rw [List.foldl_cons, ih hrest hplaced, List.filter_append, filter_insertBack h ha hx hamong,
      ← List.filter_append, List.reverse_cons, List.append_assoc]
    rfl

/-- Sorting is stable. -/
theorem stablySorted_sort (h : WeakOrder precedes among) {things : List α}
    (hthings : ∀ x ∈ things, among x) : StablySorted precedes things (sort precedes things) := by
  refine ⟨sort_perm precedes things, ?_, fun x hx => ?_⟩
  · have hgiven : things.Pairwise fun _ _ => True := List.pairwise_of_forall fun _ _ => trivial
    exact (pairwise_sort h hthings hgiven).imp fun hahead => hahead.1
  · rw [sort, List.filter_reverse,
      filter_foldl_insertBack h (hthings x hx) hthings (List.forall_mem_nil _), List.append_nil,
      List.filter_reverse, List.reverse_reverse]

/-- Lists of the same things in order are the same if those that tie are in the same order. -/
theorem eq_of_stable (h : WeakOrder precedes among) {first second : List α}
    (hamong : ∀ x ∈ first, among x) (hperm : first.Perm second)
    (hfirst : first.Pairwise fun x y => precedes y x = false)
    (hsecond : second.Pairwise fun x y => precedes y x = false)
    (hstable : ∀ x ∈ first,
      first.filter (ties precedes x) = second.filter (ties precedes x)) : first = second := by
  induction first generalizing second with
  | nil => exact hperm.nil_eq
  | cons x rest ih =>
    cases second with
    | nil => exact hperm.eq_nil
    | cons y more =>
      obtain ⟨hlater, hrest⟩ := List.pairwise_cons.mp hfirst
      obtain ⟨hlaterMore, hmore⟩ := List.pairwise_cons.mp hsecond
      have hx := hamong x List.mem_cons_self
      -- Each of the two heads comes later in the other list or is its head, so they tie.
      have hbehind : precedes x y = false := by
        rcases List.mem_cons.mp (hperm.mem_iff.mp List.mem_cons_self) with rfl | hmem
        · exact h.irrefl hx
        · exact hlaterMore x hmem
      have hahead : precedes y x = false := by
        rcases List.mem_cons.mp (hperm.mem_iff.mpr List.mem_cons_self) with rfl | hmem
        · exact h.irrefl hx
        · exact hlater y hmem
      have hheads := hstable x List.mem_cons_self
      rw [List.filter_cons_of_pos (h.ties_self hx),
        List.filter_cons_of_pos (ties_iff.mpr ⟨hbehind, hahead⟩)] at hheads
      obtain ⟨rfl, _⟩ := List.cons.inj hheads
      refine congrArg (x :: ·) (ih (fun z hz => hamong z (List.mem_cons_of_mem _ hz))
        (List.perm_cons x |>.mp hperm) hrest hmore fun z hz => ?_)
      have hsame := hstable z (List.mem_cons_of_mem _ hz)
      rw [List.filter_cons, List.filter_cons] at hsame
      split at hsame
      · exact (List.cons.inj hsame).2
      · exact hsame

/-- Given things are in order in one way only. -/
theorem StablySorted.unique (h : WeakOrder precedes among) {given first second : List α}
    (hgiven : ∀ x ∈ given, among x) (hfirst : StablySorted precedes given first)
    (hsecond : StablySorted precedes given second) : first = second := by
  have hmem : ∀ x ∈ first, x ∈ given := fun x hx => hfirst.perm.mem_iff.mp hx
  exact eq_of_stable h (fun x hx => hgiven x (hmem x hx))
    (hfirst.perm.trans hsecond.perm.symm) hfirst.ordered hsecond.ordered fun x hx =>
      (hfirst.stable x (hmem x hx)).trans (hsecond.stable x (hmem x hx)).symm

/-- Only the precedence among the given things matters. -/
theorem StablySorted.congr {other : α → α → Bool} {given sorted : List α}
    (h : StablySorted precedes given sorted)
    (hsame : ∀ x ∈ given, ∀ y ∈ given, other x y = precedes x y) :
    StablySorted other given sorted := by
  have hmem : ∀ x ∈ sorted, x ∈ given := fun x hx => h.perm.mem_iff.mp hx
  have hties : ∀ x ∈ given, ∀ y ∈ given, ties other x y = ties precedes x y :=
    fun x hx y hy => by rw [ties, ties, hsame x hx y hy, hsame y hy x hx]
  refine ⟨h.perm, h.ordered.imp_of_mem fun {x y} hx hy hlater => ?_, fun x hx => ?_⟩
  · rw [hsame y (hmem y hy) x (hmem x hx)]
    exact hlater
  · rw [List.filter_congr fun y hy => hties x hx y (hmem y hy), h.stable x hx,
      List.filter_congr (hties x hx)]

/-- Leaving things out keeps the others in order. -/
theorem StablySorted.filter {given sorted : List α} (h : StablySorted precedes given sorted)
    (test : α → Bool) : StablySorted precedes (given.filter test) (sorted.filter test) := by
  refine ⟨h.perm.filter test, h.ordered.filter test, fun x hx => ?_⟩
  have hcomm : ∀ things : List α, (things.filter test).filter (ties precedes x) =
      (things.filter (ties precedes x)).filter test := fun things => by
    rw [List.filter_filter, List.filter_filter]
    exact List.filter_congr fun y _ => Bool.and_comm _ _
  rw [hcomm, h.stable x (List.mem_filter.mp hx).1, hcomm]

/-- It makes no difference whether things are left out before sorting or after it. -/
theorem sort_filter (h : WeakOrder precedes among) {things : List α}
    (hthings : ∀ x ∈ things, among x) (test : α → Bool) :
    sort precedes (things.filter test) = (sort precedes things).filter test := by
  have hkept : ∀ x ∈ things.filter test, among x :=
    fun x hx => hthings x (List.mem_filter.mp hx).1
  exact (stablySorted_sort h hkept).unique h hkept ((stablySorted_sort h hthings).filter test)

end Sorting

/-! ## The order of a query -/

variable {outranks : α → α → SortField → Bool} {query : Query}

/-- Whether one thing comes first in the direction of a query: in ascending order the outranked
one, in descending order the outranking one. -/
def prefers (outranks : α → α → SortField → Bool) (query : Query) (left right : α) : Bool :=
  if query.ascending then outranks right left query.sortBy else outranks left right query.sortBy

theorem WeakOrder.prefers (h : WeakOrder (outranks · · query.sortBy) among) :
    WeakOrder (Listing.prefers outranks query) among := by
  unfold Listing.prefers
  split
  · exact h.flip
  · exact h

/-- What is preferred is not outranked the other way round, so it precedes. -/
theorem precedes_eq_prefers (h : WeakOrder (outranks · · query.sortBy) among) {x y : α}
    (hx : among x) (hy : among y) :
    precedes outranks query x y = Listing.prefers outranks query x y := by
  unfold precedes Listing.prefers
  split
  · cases hback : outranks y x query.sortBy with
    | false => exact Bool.and_false _
    | true => rw [h.asymm y x hy hx hback]; rfl
  · cases hforth : outranks x y query.sortBy with
    | false => exact Bool.and_false _
    | true => rw [h.asymm x y hx hy hforth]; rfl

theorem WeakOrder.precedes (h : WeakOrder (outranks · · query.sortBy) among) :
    WeakOrder (Listing.precedes outranks query) among := by
  constructor
  · intro x y hx hy hxy
    rw [precedes_eq_prefers h hx hy] at hxy
    rw [precedes_eq_prefers h hy hx]
    exact h.prefers.asymm x y hx hy hxy
  · intro x y z hx hy hz hxy hyz
    rw [precedes_eq_prefers h hx hy] at hxy
    rw [precedes_eq_prefers h hy hz] at hyz
    rw [precedes_eq_prefers h hx hz]
    exact h.prefers.tied x y z hx hy hz hxy hyz

end ClusterObjects.Listing
