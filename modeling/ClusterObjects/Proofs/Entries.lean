import ClusterObjects.Entries
import Mathlib.Data.List.Nodup

/-! # Maps made from pairs

The first values of the keys are all that a map made from pairs shows of them, and where no key
occurs twice the map holds the pairs themselves in another order.
-/

namespace ClusterObjects.Entries

variable {κ β : Type}

section

variable [DecidableEq κ] {entries other : Entries κ β} {key : κ} {value : β}

theorem get?_append (front back : List (κ × β)) (key : κ) :
    get? (front ++ back) key = (get? front key).or (get? back key) := by
  induction front with
  | nil => rfl
  | cons head rest ih =>
    obtain ⟨k, v⟩ := head
    rw [List.cons_append, get?_cons, get?_cons, ih]
    split <;> rfl

/-- Nothing is found under a key that no entry has. -/
theorem get?_eq_none_of_forall_ne (h : ∀ entry ∈ entries, entry.1 ≠ key) :
    entries.get? key = none := by
  induction entries with
  | nil => rfl
  | cons head rest ih =>
    obtain ⟨hhead, hrest⟩ := List.forall_mem_cons.mp h
    exact (if_neg hhead).trans (ih hrest)

/-- Where no key occurs twice, a value is found under a key exactly if they are an entry. -/
theorem get?_eq_some_iff_mem (h : (entries.map Prod.fst).Nodup) :
    entries.get? key = some value ↔ (key, value) ∈ entries := by
  induction entries with
  | nil => simp
  | cons head rest ih =>
    obtain ⟨k, v⟩ := head
    obtain ⟨hhead, hrest⟩ := List.nodup_cons.mp h
    rw [get?_cons, List.mem_cons]
    split
    next hk =>
      subst hk
      have hnew : (k, value) ∉ rest := fun hmem =>
        hhead (List.mem_map.mpr ⟨(k, value), hmem, rfl⟩)
      rw [or_iff_left hnew]
      exact ⟨fun heq => by rw [Option.some.inj heq], fun heq => by rw [(Prod.mk.inj heq).2]⟩
    next hk =>
      rw [ih hrest, or_iff_right]
      exact fun heq => hk (Prod.mk.inj heq).1.symm

/-- Where no key occurs twice, the entries of a key are the one that is found. -/
theorem filter_key (h : (entries.map Prod.fst).Nodup) (key : κ) :
    entries.filter (fun entry => entry.1 = key) =
      (entries.get? key).toList.map fun value => (key, value) := by
  induction entries with
  | nil => rfl
  | cons head rest ih =>
    obtain ⟨k, v⟩ := head
    obtain ⟨hhead, hrest⟩ := List.nodup_cons.mp h
    rw [List.filter_cons, get?_cons, ih hrest]
    by_cases hk : k = key
    · subst hk
      have hnew : get? rest k = none := get?_eq_none_of_forall_ne fun entry hentry heq =>
        hhead (List.mem_map.mpr ⟨entry, hentry, heq⟩)
      simp [hnew]
    · simp [hk]

/-- Entries in which no key occurs twice are the same up to their order if they show the same. -/
theorem perm_of_get?_eq (h : (entries.map Prod.fst).Nodup) (hother : (other.map Prod.fst).Nodup)
    (hsame : ∀ key, entries.get? key = other.get? key) : entries.Perm other := by
  refine (List.perm_ext_iff_of_nodup (.of_map _ h) (.of_map _ hother)).mpr fun ⟨key, value⟩ => ?_
  rw [← get?_eq_some_iff_mem h, ← get?_eq_some_iff_mem hother, hsame]

end

variable [Ord κ] [Std.LawfulEqOrd κ]

/-- No key occurs twice where the keys ascend. -/
theorem Ascending.nodup_keys {entries : Entries κ β} (h : entries.Ascending) :
    (entries.map Prod.fst).Nodup := by
  refine List.pairwise_map.mpr (h.imp fun {left right} hlt heq => ?_)
  simp [heq, Std.ReflCmp.compare_self] at hlt

variable [DecidableEq κ]

/-- The map of the first values depends on these alone. -/
theorem ofFirsts_congr [Std.TransOrd κ] {left right : List (κ × β)}
    (h : ∀ key, get? left key = get? right key) : ofFirsts left = ofFirsts right := by
  refine (ascending_ofFirsts left).ext (ascending_ofFirsts right) fun key => ?_
  rw [get?_ofFirsts, get?_ofFirsts, h]

/-- Pairs whose keys differ from each other and from those of a map are added to it. -/
theorem perm_foldl_insert {pairs : List (κ × β)} {entries : Entries κ β}
    (h : (pairs.map Prod.fst).Nodup) (hnew : ∀ pair ∈ pairs, entries.get? pair.1 = none) :
    (pairs.foldl (fun entries pair => entries.insert pair.1 pair.2) entries).Perm
      (pairs ++ entries) := by
  induction pairs generalizing entries with
  | nil => exact List.Perm.refl _
  | cons pair rest ih =>
    obtain ⟨key, value⟩ := pair
    obtain ⟨hpair, hrest⟩ := List.nodup_cons.mp h
    obtain ⟨hkey, hothers⟩ := List.forall_mem_cons.mp hnew
    have hnext : ∀ other ∈ rest, (entries.insert key value).get? other.1 = none := by
      intro other hother
      rw [get?_insert, if_neg, hothers other hother]
      rintro rfl
      exact hpair (List.mem_map.mpr ⟨other, hother, rfl⟩)
    exact (ih hrest hnext).trans
      (((perm_insert hkey value).append_left rest).trans List.perm_middle)

/-- A map made from pairs whose keys differ holds these pairs. -/
theorem perm_ofList {pairs : List (κ × β)} (h : (pairs.map Prod.fst).Nodup) :
    (ofList pairs).Perm pairs := by
  have hperm : (ofList pairs).Perm (pairs ++ []) := perm_foldl_insert h fun _ _ => rfl
  rwa [List.append_nil] at hperm

end ClusterObjects.Entries
