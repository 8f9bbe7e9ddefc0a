import ClusterObjects.Proofs.Query.Listing
import Mathlib.Data.List.Pairwise

/-! # Listings without ties

Where no two of the things to be listed tie, their places do not depend on the order in which they
are given: there is one order only in which none of them precedes an earlier one, and its reverse
is the only such order in the other direction. Objects with a name tie if their names are the same
and, where creation times count, these are the same too.
-/

namespace ClusterObjects

namespace Listing

variable {α : Type} {among : α → Prop} {precedes : α → α → Bool} {things other : List α}

/-- No two of some things tie. -/
def Untied (precedes : α → α → Bool) (things : List α) : Prop :=
  things.Pairwise fun x y => ties precedes x y = false

theorem ties_comm (x y : α) : ties precedes x y = ties precedes y x := Bool.and_comm _ _

theorem Untied.eq_of_ties (h : Untied precedes things) {x y : α} (hx : x ∈ things)
    (hy : y ∈ things) (hties : ties precedes x y = true) : x = y := by
  by_contra hne
  have hsymm : Std.Symm fun x y => ties precedes x y = false :=
    ⟨fun x y hxy => (ties_comm y x).trans hxy⟩
  rw [h.forall hx hy hne] at hties
  contradiction

/-- Things that do not tie are in order in one way only. -/
theorem sort_eq_of_untied (h : WeakOrder precedes among) (hthings : ∀ x ∈ things, among x)
    (huntied : Untied precedes things) (hperm : other.Perm things)
    (hordered : other.Pairwise fun x y => precedes y x = false) :
    sort precedes things = other := by
  have hsorted := stablySorted_sort h hthings
  apply List.Perm.eq_of_pairwise _ hsorted.ordered hordered (hsorted.perm.trans hperm.symm)
  intro x y hx hy hbehind hahead
  exact huntied.eq_of_ties (hsorted.perm.mem_iff.mp hx) (hperm.mem_iff.mp hy)
    (ties_iff.mpr ⟨hahead, hbehind⟩)

/-- The order in which things are given does not matter if they do not tie. -/
theorem sort_of_perm (h : WeakOrder precedes among) (hthings : ∀ x ∈ things, among x)
    (huntied : Untied precedes things) (hperm : other.Perm things) :
    sort precedes other = sort precedes things := by
  have hother : ∀ x ∈ other, among x := fun x hx => hthings x (hperm.mem_iff.mp hx)
  have hsorted := stablySorted_sort h hother
  exact (sort_eq_of_untied h hthings huntied (hsorted.perm.trans hperm) hsorted.ordered).symm

/-- Things that do not tie are sorted in reverse by the reverse of their order. -/
theorem sort_flip (h : WeakOrder precedes among) (hthings : ∀ x ∈ things, among x)
    (huntied : Untied precedes things) :
    sort (fun x y => precedes y x) things = (sort precedes things).reverse := by
  have hflipped : Untied (fun x y => precedes y x) things := by
    refine huntied.imp fun {x y} hxy => ?_
    rw [ties_comm] at hxy
    exact hxy
  apply sort_eq_of_untied h.flip hthings hflipped
  · exact (List.reverse_perm _).trans (sort_perm precedes things)
  · exact List.pairwise_reverse.mpr (stablySorted_sort h hthings).ordered

end Listing

/-- Two objects have the same name and, where creation times count, the same creation time; no
creation time is the same as none. -/
def Metadata.Ties (sortBy : SortField) (left right : Metadata) : Prop :=
  match sortBy with
  | .name => left.name = right.name
  | .createTime => left.created = right.created ∧ left.name = right.name

instance (sortBy : SortField) (left right : Metadata) :
    Decidable (Metadata.Ties sortBy left right) :=
  match sortBy with
  | .name => inferInstanceAs (Decidable (left.name = right.name))
  | .createTime =>
    inferInstanceAs (Decidable (left.created = right.created ∧ left.name = right.name))

/-- Objects of one rank tie. -/
theorem Metadata.ties_of_rank_eq {left right : Metadata} {sortBy : SortField}
    (h : left.rank sortBy = right.rank sortBy) : Metadata.Ties sortBy left right := by
  have hname := name_eq_of_rank_eq h
  cases sortBy with
  | name => exact hname
  | createTime =>
    exact ⟨Instant.rank_injective (congrArg (fun rank => (ofLex rank).1) h), hname⟩

/-- No two objects with a name tie in the order of a query. -/
def Query.Separates (query : Query) (objects : List Container) : Prop :=
  objects.Pairwise fun x y =>
    x.isNamed = true → y.isNamed = true → ¬ Metadata.Ties query.sortBy x.metadata y.metadata

instance (query : Query) (objects : List Container) : Decidable (query.Separates objects) :=
  inferInstanceAs (Decidable (objects.Pairwise _))

section

variable {query : Query} {objects : List Container}

theorem Query.Separates.untied (h : query.Separates objects) :
    Listing.Untied (Listing.precedes Container.outranks query) (query.chosen objects) := by
  refine (h.sublist (chosen_sublist query objects)).imp_of_mem fun {x y} hx hy hseparate => ?_
  have hx := isNamed_of_mem_chosen hx
  have hy := isNamed_of_mem_chosen hy
  rw [← Bool.not_eq_true, Listing.ties_iff]
  rintro ⟨hxy, hyx⟩
  rw [← Bool.not_eq_true, Container.precedes_iff hx hy] at hxy
  rw [← Bool.not_eq_true, Container.precedes_iff hy hx] at hyx
  exact hseparate hx hy (Metadata.ties_of_rank_eq (Query.rank_eq_of_not_ranks hxy hyx))

theorem chosen_perm {other : List Container} (h : other.Perm objects) :
    (query.chosen other).Perm (query.chosen objects) :=
  (h.filter _).filter _

/-- A listing upwards is the reverse of the same listing downwards. -/
theorem listObjects_upward (hpage : query.page = none) (hdown : query.ascending = false)
    (h : query.Separates objects) :
    (listObjects objects { query with ascending := true }).items =
      (listObjects objects query).items.reverse := by
  have hflip : Listing.precedes Container.outranks { query with ascending := true } =
      fun x y => Listing.precedes Container.outranks query y x := by
    funext x y
    simp [Listing.precedes, hdown]
  have hup : Query.page { query with ascending := true } = none := hpage
  rw [(listObjects_eq hup).1, (listObjects_eq hpage).1, hflip]
  exact Listing.sort_flip (Container.weakOrder_outranks query.sortBy).precedes
    (fun x hx => isNamed_of_mem_chosen hx) h.untied

/-- If no two objects with a name tie, a listing does not depend on the order in which the objects
are given, whatever its page, and without pages the listings upwards and downwards are the reverse
of each other. -/
theorem listObjects_untied (h : query.Separates objects) :
    (∀ other : List Container, other.Perm objects → ∀ page : Option Page,
      listObjects other { query with page } = listObjects objects { query with page }) ∧
      (listObjects objects { query with page := none, ascending := true }).items =
        (listObjects objects { query with page := none, ascending := false }).items.reverse := by
  have hranked := Container.weakOrder_outranks query.sortBy
  constructor
  · intro other hperm page
    rw [listObjects_eq_cut, listObjects_eq_cut]
    congr 1
    exact Listing.sort_of_perm hranked.precedes (fun x hx => isNamed_of_mem_chosen hx) h.untied
      (chosen_perm hperm)
  · have hdown : Query.Separates { query with page := none, ascending := false } objects := h
    exact listObjects_upward rfl rfl hdown

end

/-- Objects of a kind with a name and a creation time, which may be missing. -/
def dated : List Container :=
  [("b", some 2), ("", some 2), ("a", none), ("c", some 1), ("", some 2), ("a", some 2)].map
    fun (name, year) =>
      { Container.generic ⟨"", "v1", "ConfigMap"⟩ with
        metadata := ⟨[("name", .str name)], year.map fun year => ⟨⟨year, 1, 1⟩, 0, 0, 0, 0⟩⟩ }

/-- Neither one time of several names nor one name of several times is a tie, and what has no name
does not count. -/
theorem listObjects_untied_dated :
    Query.all.Separates dated ∧ dated.reverse.Perm dated ∧
      (listObjects dated Query.all).items.map Container.name = ["b", "a", "c", "a"] ∧
      listObjects dated.reverse (Query.all.paginate 2 2) =
        listObjects dated (Query.all.paginate 2 2) ∧
      (listObjects dated { Query.all with page := none, ascending := true }).items =
        (listObjects dated { Query.all with page := none, ascending := false }).items.reverse := by
  have hseparates : Query.all.Separates dated := by decide
  exact ⟨hseparates, List.reverse_perm dated, by decide,
    (listObjects_untied hseparates).1 _ (List.reverse_perm dated) (some ⟨2, 2⟩),
    (listObjects_untied hseparates).2⟩

end ClusterObjects
