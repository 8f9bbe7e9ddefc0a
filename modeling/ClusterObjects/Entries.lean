/-! # Entries in key order

A finite map is a list of entries with one entry per key, ascending in the
order of the keys. The operations here keep that shape (`Ascending`), and
`get?` is the view through which each of them is described: an insertion
answers at its own key and nowhere else, and so does a removal. Two maps of
that shape with the same view are equal (`Ascending.ext`).
-/

namespace ClusterObjects

/-- The entries of a finite map, one per key, in ascending key order. -/
abbrev Entries (κ : Type) (β : Type) := List (κ × β)

namespace Entries

variable {κ β : Type}

/-- The keys strictly ascend from entry to entry. -/
def Ascending [Ord κ] (entries : Entries κ β) : Prop :=
  entries.Pairwise fun left right => compare left.1 right.1 = .lt

/-- The value stored under a key. -/
def get? [DecidableEq κ] (entries : Entries κ β) (key : κ) : Option β :=
  match entries with
  | [] => none
  | (k, value) :: rest => if k = key then some value else get? rest key

def contains [DecidableEq κ] (entries : Entries κ β) (key : κ) : Bool :=
  (get? entries key).isSome

/-- Store a value under a key, replacing the value that was there. -/
def insert [Ord κ] (entries : Entries κ β) (key : κ) (value : β) : Entries κ β :=
  match entries with
  | [] => [(key, value)]
  | (k, v) :: rest =>
    match compare key k with
    | .lt => (key, value) :: (k, v) :: rest
    | .eq => (key, value) :: rest
    | .gt => (k, v) :: insert rest key value

def erase [DecidableEq κ] (entries : Entries κ β) (key : κ) : Entries κ β :=
  match entries with
  | [] => []
  | (k, v) :: rest => if k = key then rest else (k, v) :: erase rest key

/-- The map that holds the given pairs; the last pair of a key counts. -/
def ofList [Ord κ] (pairs : List (κ × β)) : Entries κ β :=
  pairs.foldl (fun entries pair => entries.insert pair.1 pair.2) []

/-- Store a value under a key that has none; a key that has one keeps it. -/
def insertNew [Ord κ] [DecidableEq κ] (entries : Entries κ β) (key : κ) (value : β) :
    Entries κ β :=
  if entries.contains key then entries else entries.insert key value

/-- The map that holds the given pairs; the first pair of a key counts. -/
def ofFirsts [Ord κ] [DecidableEq κ] (pairs : List (κ × β)) : Entries κ β :=
  pairs.foldl (fun entries pair => entries.insertNew pair.1 pair.2) []

@[simp] theorem get?_nil [DecidableEq κ] (key : κ) : get? ([] : Entries κ β) key = none := rfl

theorem get?_cons [DecidableEq κ] (k : κ) (v : β) (rest : Entries κ β) (key : κ) :
    get? ((k, v) :: rest) key = if k = key then some v else get? rest key := rfl

/-- The key of an entry has a value. -/
theorem get?_ne_none_of_mem [DecidableEq κ] {entries : Entries κ β} {entry : κ × β}
    (h : entry ∈ entries) : entries.get? entry.1 ≠ none := by
  induction entries with
  | nil => contradiction
  | cons head rest ih =>
    obtain ⟨k, v⟩ := head
    rw [get?_cons]
    split
    next => exact Option.some_ne_none v
    next hne =>
      rcases List.mem_cons.mp h with rfl | hrest
      · exact absurd rfl hne
      · exact ih hrest

/-- Every entry of an insertion is at the inserted key or was there before. -/
theorem mem_insert [Ord κ] {entries : Entries κ β} {key : κ} {value : β} {entry : κ × β}
    (h : entry ∈ entries.insert key value) : entry.1 = key ∨ entry ∈ entries := by
  induction entries with
  | nil => simp only [insert, List.mem_singleton] at h; exact Or.inl (by rw [h])
  | cons head rest ih =>
    obtain ⟨k, v⟩ := head
    simp only [insert] at h
    cases hcmp : compare key k <;> rw [hcmp] at h <;> simp only [List.mem_cons] at h ⊢
    · rcases h with rfl | h
      · exact Or.inl rfl
      · exact Or.inr h
    · rcases h with rfl | h
      · exact Or.inl rfl
      · exact Or.inr (Or.inr h)
    · rcases h with rfl | h
      · exact Or.inr (Or.inl rfl)
      · exact (ih h).imp_right Or.inr

theorem ascending_iff_keys [Ord κ] {entries : Entries κ β} :
    entries.Ascending ↔
      (entries.map (·.1)).Pairwise fun left right => compare left right = .lt := by
  rw [List.pairwise_map, Ascending]

/-- Removal keeps the keys ascending. -/
theorem Ascending.erase [Ord κ] [DecidableEq κ] {entries : Entries κ β} (h : entries.Ascending)
    (key : κ) : (entries.erase key).Ascending := by
  have hsub : (entries.erase key).Sublist entries := by
    induction entries with
    | nil => exact List.Sublist.refl _
    | cons head rest ih =>
      obtain ⟨k, v⟩ := head
      simp only [Entries.erase]
      split
      · exact List.sublist_cons_self _ _
      · exact (ih (List.pairwise_cons.mp h).2).cons_cons _
  exact h.sublist hsub

variable [Ord κ] [Std.LawfulEqOrd κ]

section Lookup

variable [DecidableEq κ]

/-- A stored value is found again, and no other key notices. -/
theorem get?_insert (entries : Entries κ β) (key other : κ) (value : β) :
    (entries.insert key value).get? other =
      if key = other then some value else entries.get? other := by
  induction entries with
  | nil => simp [insert, get?]
  | cons entry rest ih =>
    obtain ⟨k, v⟩ := entry
    simp only [insert]
    cases hcmp : compare key k with
    | lt => simp [get?]
    | eq =>
      have hk : key = k := Std.LawfulEqCmp.eq_of_compare hcmp
      subst hk
      by_cases h : key = other <;> simp [get?, h]
    | gt =>
      have hne : key ≠ k := by
        rintro rfl
        simp [Std.ReflCmp.compare_self] at hcmp
      by_cases h : k = other
      · subst h
        simp [get?, hne]
      · simp only [get?, if_neg h]
        exact ih

/-- Storing a value under a key without one adds it to the entries. -/
theorem perm_insert {entries : Entries κ β} {key : κ} (h : entries.get? key = none) (value : β) :
    (entries.insert key value).Perm ((key, value) :: entries) := by
  induction entries with
  | nil => exact List.Perm.refl _
  | cons entry rest ih =>
    obtain ⟨k, v⟩ := entry
    rw [get?_cons] at h
    split at h
    · contradiction
    next hne =>
      simp only [insert]
      cases hcmp : compare key k with
      | lt => exact List.Perm.refl _
      | eq => exact absurd (Std.LawfulEqCmp.eq_of_compare hcmp).symm hne
      | gt => exact ((ih h).cons (k, v)).trans (List.Perm.swap _ _ rest)

/-- A key below every key of the map has no entry. -/
theorem get?_eq_none_of_lt {entries : Entries κ β} {key : κ}
    (h : ∀ entry ∈ entries, compare key entry.1 = .lt) : entries.get? key = none := by
  induction entries with
  | nil => rfl
  | cons head rest ih =>
    obtain ⟨k, v⟩ := head
    have hne : ¬ k = key := by
      rintro rfl
      have := h (k, v) List.mem_cons_self
      simp [Std.ReflCmp.compare_self] at this
    rw [get?_cons, if_neg hne]
    exact ih fun entry hentry => h entry (List.mem_cons_of_mem _ hentry)

/-- A removed key has no entry, and no other key notices. -/
theorem get?_erase {entries : Entries κ β} (h : entries.Ascending) (key other : κ) :
    (entries.erase key).get? other = if key = other then none else entries.get? other := by
  induction entries with
  | nil => simp [erase]
  | cons head rest ih =>
    obtain ⟨k, v⟩ := head
    obtain ⟨hhead, htail⟩ := List.pairwise_cons.mp h
    simp only [erase]
    by_cases hk : k = key
    · subst hk
      rw [if_pos rfl]
      by_cases ho : k = other
      · subst ho
        rw [if_pos rfl]
        exact get?_eq_none_of_lt hhead
      · simp [get?_cons, ho]
    · rw [if_neg hk, get?_cons, ih htail, get?_cons]
      by_cases ho : k = other
      · subst ho
        simp [Ne.symm hk]
      · simp [ho]

/-- A key that has an entry keeps it; only a new one takes the value. -/
theorem get?_insertNew (entries : Entries κ β) (key other : κ) (value : β) :
    (entries.insertNew key value).get? other =
      (entries.get? other).or (if key = other then some value else none) := by
  unfold insertNew
  split
  next h =>
    by_cases hk : key = other
    · subst hk
      obtain ⟨found, hfound⟩ := Option.isSome_iff_exists.mp h
      rw [hfound]
      rfl
    · rw [if_neg hk, Option.or_none]
  next h =>
    rw [get?_insert]
    by_cases hk : key = other
    · subst hk
      have hnone : entries.get? key = none := Option.not_isSome_iff_eq_none.mp h
      rw [hnone, if_pos rfl]
      rfl
    · rw [if_neg hk, if_neg hk, Option.or_none]

/-- Pairs stored one after another under new keys: the first value of a key stays. -/
theorem get?_foldl_insertNew (pairs : List (κ × β)) (entries : Entries κ β) (key : κ) :
    (pairs.foldl (fun entries pair => entries.insertNew pair.1 pair.2) entries).get? key =
      (entries.get? key).or (get? pairs key) := by
  induction pairs generalizing entries with
  | nil => rw [List.foldl_nil, get?_nil, Option.or_none]
  | cons pair rest ih =>
    obtain ⟨k, v⟩ := pair
    rw [List.foldl_cons, ih, get?_insertNew, get?_cons, Option.or_assoc]
    split
    next => rfl
    next => rw [Option.none_or]

/-- The map of the first values shows the first pair of each key. -/
theorem get?_ofFirsts (pairs : List (κ × β)) (key : κ) :
    (ofFirsts pairs).get? key = get? pairs key := by
  unfold ofFirsts
  rw [get?_foldl_insertNew, get?_nil, Option.none_or]

/-- In a map with ascending keys the entries are what the view shows. -/
theorem get?_eq_some_iff {entries : Entries κ β} (h : entries.Ascending) {key : κ} {value : β} :
    entries.get? key = some value ↔ (key, value) ∈ entries := by
  induction entries with
  | nil => simp
  | cons head rest ih =>
    obtain ⟨k, v⟩ := head
    obtain ⟨hhead, htail⟩ := List.pairwise_cons.mp h
    rw [get?_cons]
    split
    next hk =>
      subst hk
      constructor
      · intro heq
        rw [Option.some.inj heq]
        exact List.mem_cons_self
      · intro hmem
        rcases List.mem_cons.mp hmem with heq | hrest
        · rw [(Prod.mk.inj heq).2]
        · have hlt := hhead _ hrest
          simp [Std.ReflCmp.compare_self] at hlt
    next hk =>
      rw [ih htail, List.mem_cons]
      constructor
      · exact Or.inr
      · rintro (heq | hrest)
        · exact absurd (Prod.mk.inj heq).1.symm hk
        · exact hrest

/-- A value that is found among the entries that a test passes passes it. -/
theorem get?_filter {entries : Entries κ β} (h : entries.Ascending) (test : κ × β → Bool)
    (key : κ) :
    get? (entries.filter test) key = (entries.get? key).filter fun value => test (key, value) := by
  have hfilter : Ascending (entries.filter test) := h.sublist List.filter_sublist
  ext value
  rw [get?_eq_some_iff hfilter, List.mem_filter, ← get?_eq_some_iff h, Option.filter_eq_some_iff]

end Lookup

/-- Insertion keeps the keys ascending. -/
theorem Ascending.insert [Std.TransOrd κ] {entries : Entries κ β} (h : entries.Ascending)
    (key : κ) (value : β) : (entries.insert key value).Ascending := by
  induction entries with
  | nil => simp [Entries.insert, Ascending]
  | cons head rest ih =>
    obtain ⟨k, v⟩ := head
    obtain ⟨hhead, htail⟩ := List.pairwise_cons.mp h
    simp only [Entries.insert]
    cases hcmp : compare key k with
    | lt =>
      refine List.pairwise_cons.mpr ⟨?_, h⟩
      intro entry hentry
      rcases List.mem_cons.mp hentry with rfl | hrest
      · exact hcmp
      · exact Std.TransCmp.lt_trans hcmp (hhead entry hrest)
    | eq =>
      have hk : key = k := Std.LawfulEqCmp.eq_of_compare hcmp
      subst hk
      exact List.pairwise_cons.mpr ⟨hhead, htail⟩
    | gt =>
      refine List.pairwise_cons.mpr ⟨?_, ih htail⟩
      intro entry hentry
      rcases mem_insert hentry with heq | hrest
      · rw [heq]
        exact Std.OrientedCmp.gt_iff_lt.mp hcmp
      · exact hhead entry hrest

/-- A map made from the first pairs of the keys has ascending keys. -/
theorem ascending_ofFirsts [Std.TransOrd κ] [DecidableEq κ] (pairs : List (κ × β)) :
    Ascending (ofFirsts pairs) := by
  have hfold : ∀ entries : Entries κ β, entries.Ascending →
      Ascending (pairs.foldl (fun entries pair => entries.insertNew pair.1 pair.2) entries) := by
    induction pairs with
    | nil => exact fun _ h => h
    | cons pair rest ih =>
      intro entries h
      apply ih
      change (entries.insertNew pair.1 pair.2).Ascending
      unfold insertNew
      split
      · exact h
      · exact h.insert pair.1 pair.2
  exact hfold [] List.Pairwise.nil

/-- Maps with ascending keys and the same view are the same. -/
theorem Ascending.ext [Std.TransOrd κ] [DecidableEq κ] {left right : Entries κ β}
    (hleft : left.Ascending) (hright : right.Ascending)
    (h : ∀ key, left.get? key = right.get? key) : left = right := by
  induction left generalizing right with
  | nil =>
    cases right with
    | nil => rfl
    | cons entry rest =>
      have hentry := h entry.1
      rw [get?_nil, get?_cons, if_pos rfl] at hentry
      contradiction
  | cons entry rest ih =>
    obtain ⟨k, v⟩ := entry
    cases right with
    | nil =>
      have hentry := h k
      rw [get?_nil, get?_cons, if_pos rfl] at hentry
      contradiction
    | cons other more =>
      obtain ⟨l, w⟩ := other
      obtain ⟨hk, hrest⟩ := List.pairwise_cons.mp hleft
      obtain ⟨hl, hmore⟩ := List.pairwise_cons.mp hright
      have hfirst : (k, v) ∈ (l, w) :: more := by
        rw [← get?_eq_some_iff hright, ← h, get?_cons, if_pos rfl]
      have hother : (l, w) ∈ (k, v) :: rest := by
        rw [← get?_eq_some_iff hleft, h, get?_cons, if_pos rfl]
      -- Each head is in the other map, and neither can lie behind the other's head.
      have heq : (k, v) = (l, w) := by
        rcases List.mem_cons.mp hfirst with heq | hfirst
        · exact heq
        · rcases List.mem_cons.mp hother with heq | hother
          · exact heq.symm
          · have hlt := Std.TransCmp.lt_trans (hl _ hfirst) (hk _ hother)
            simp [Std.ReflCmp.compare_self] at hlt
      obtain ⟨rfl, rfl⟩ := Prod.mk.inj heq
      rw [ih hrest hmore]
      intro key
      have hkey := h key
      rw [get?_cons, get?_cons] at hkey
      split at hkey
      next heq =>
        subst heq
        rw [get?_eq_none_of_lt hk, get?_eq_none_of_lt hl]
      next => exact hkey

section Again

variable [Std.TransOrd κ] [DecidableEq κ] {entries : Entries κ β}

/-- Storing a value where it is stored already changes nothing. -/
theorem insert_eq_self (h : entries.Ascending) {key : κ} {value : β}
    (hvalue : entries.get? key = some value) : entries.insert key value = entries := by
  refine (h.insert key value).ext h fun other => ?_
  rw [get?_insert]
  split
  next heq => rw [← heq, hvalue]
  next => rfl

/-- Of two values stored under one key the later counts. -/
theorem insert_insert (h : entries.Ascending) (key : κ) (first second : β) :
    (entries.insert key first).insert key second = entries.insert key second := by
  refine ((h.insert key first).insert key second).ext (h.insert key second) fun other => ?_
  rw [get?_insert, get?_insert, get?_insert]
  split <;> rfl

end Again

end Entries

end ClusterObjects
