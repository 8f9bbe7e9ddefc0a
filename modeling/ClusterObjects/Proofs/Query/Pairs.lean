import ClusterObjects.Proofs.Entries
import ClusterObjects.Proofs.Text.Integer
import ClusterObjects.Query.Basic
import Mathlib.Logic.Function.Basic

/-! # Queries from pairs

A query is read from key and value pairs, and the first values of the keys are all that counts.
Each of them is either one of a few reserved keys or gives exactly one filter: a key names its
field and a field its key, so no two keys share a field and no value is lost. A page is wanted if
and only if the limit writes a number that a word holds.
-/

namespace ClusterObjects

theorem Field.ofKey_injective : Function.Injective Field.ofKey :=
  Function.LeftInverse.injective Field.key_ofKey

namespace Query

variable {pairs : List (String × String)} {key : String}

/-- The field and the value of the filter that a pair gives. -/
def filterOf (pair : String × String) : Field × String := (Field.ofKey pair.1, pair.2)

/-- The first values of the keys that are not reserved. -/
def unreserved (pairs : List (String × String)) : Entries String String :=
  (Entries.ofFirsts pairs).filter fun pair => !reservedKeys.contains pair.1

theorem nodup_unreserved (pairs : List (String × String)) :
    ((unreserved pairs).map Prod.fst).Nodup :=
  Entries.Ascending.nodup_keys ((Entries.ascending_ofFirsts pairs).sublist List.filter_sublist)

theorem get?_unreserved (pairs : List (String × String)) (key : String) :
    (unreserved pairs).get? key =
      if key ∈ reservedKeys then none else Entries.get? pairs key := by
  unfold unreserved
  rw [Entries.get?_filter (Entries.ascending_ofFirsts pairs), Entries.get?_ofFirsts]
  cases Entries.get? pairs key <;> simp [Option.filter_some]

theorem nodup_map_filterOf {pairs : List (String × String)} (h : (pairs.map Prod.fst).Nodup) :
    ((pairs.map filterOf).map Prod.fst).Nodup := by
  have hkeys : (pairs.map filterOf).map Prod.fst = (pairs.map Prod.fst).map Field.ofKey := by
    rw [List.map_map, List.map_map]
    rfl
  rw [hkeys]
  exact h.map Field.ofKey_injective

/-- The query in terms of the first values of the keys. -/
theorem ofPairs_eq (pairs : List (String × String)) :
    ofPairs pairs =
      { filters := Entries.ofList ((unreserved pairs).map filterOf)
        sortBy := (((Entries.get? pairs "orderBy").or (Entries.get? pairs "sortBy")).map
          SortField.ofKey).getD .createTime
        ascending := ((Entries.get? pairs "ascending").map affirms).getD false
        page := ((Entries.get? pairs "limit").bind trimmedWord?).map fun limit =>
          ⟨((Entries.get? pairs "page").bind trimmedWord?).getD 1, limit⟩
        labelSelector :=
          (Entries.get? pairs "labelSelector").filter fun text => !text.isEmpty } := by
  unfold ofPairs Entries.ofList
  simp only [Entries.get?_ofFirsts, List.foldl_map]
  rfl

/-- The filters of a query are those of the keys that are not reserved. -/
theorem perm_filters_ofPairs (pairs : List (String × String)) :
    (ofPairs pairs).filters.Perm ((unreserved pairs).map filterOf) := by
  rw [ofPairs_eq]
  exact Entries.perm_ofList (nodup_map_filterOf (nodup_unreserved pairs))

/-- A key gives one filter, with its first value, or none if it is reserved or has no value. -/
theorem filters_of_key (pairs : List (String × String)) (key : String) :
    (ofPairs pairs).filters.filter (fun filter => filter.1.key = key) =
      if key ∈ reservedKeys then []
      else (Entries.get? pairs key).toList.map fun value => (Field.ofKey key, value) := by
  have hperm := (perm_filters_ofPairs pairs).filter fun filter => filter.1.key = key
  have hentries : ((unreserved pairs).map filterOf).filter (fun filter => filter.1.key = key) =
      ((unreserved pairs).get? key).toList.map fun value => (Field.ofKey key, value) := by
    have hkey : (fun filter : Field × String => decide (filter.1.key = key)) ∘ filterOf =
        fun pair => decide (pair.1 = key) := by
      funext pair
      exact congrArg (decide <| · = key) (Field.key_ofKey pair.1)
    rw [List.filter_map, hkey, Entries.filter_key (nodup_unreserved pairs), List.map_map]
    rfl
  rw [hentries, get?_unreserved] at hperm
  by_cases hkey : key ∈ reservedKeys
  · rw [if_pos hkey] at hperm ⊢
    exact hperm.eq_nil
  · rw [if_neg hkey] at hperm ⊢
    -- There is at most one such filter, and one entry has one order only.
    cases hvalue : Entries.get? pairs key with
    | none =>
      rw [hvalue] at hperm
      exact hperm.eq_nil
    | some value =>
      rw [hvalue] at hperm
      exact hperm.eq_singleton

/-! ## What is read -/

theorem ofPairs_congr {other : List (String × String)}
    (h : ∀ key, Entries.get? other key = Entries.get? pairs key) :
    ofPairs other = ofPairs pairs := by
  unfold ofPairs
  rw [Entries.ofFirsts_congr h]

theorem exists_page_ofPairs_iff {limit : Nat} :
    (∃ number, (ofPairs pairs).page = some ⟨number, limit⟩) ↔
      limit < Text.wordBound ∧ ∃ text, Entries.get? pairs "limit" = some text ∧
        Text.Writes limit (Text.trim text.toList) := by
  rw [ofPairs_eq]
  constructor
  · rintro ⟨number, hpage⟩
    obtain ⟨found, hfound, hpage⟩ := Option.map_eq_some_iff.mp hpage
    obtain ⟨text, htext, hword⟩ := Option.bind_eq_some_iff.mp hfound
    obtain rfl := (Page.mk.inj hpage).2
    obtain ⟨hbound, hwrites⟩ := Text.word?_eq_some_iff.mp hword
    exact ⟨hbound, text, htext, hwrites⟩
  · rintro ⟨hbound, text, htext, hwrites⟩
    have hword : trimmedWord? text = some limit := Text.word?_eq_some_iff.mpr ⟨hbound, hwrites⟩
    rw [htext, Option.bind_some, hword]
    exact ⟨_, rfl⟩

/-- What a query keeps of pairs. A key that is not reserved and has a value gives one filter, with
the first value, and no other key gives one; a page has the limit that the first text for it
writes, and there is none without such a text. -/
structure Keeps (pairs : List (String × String)) (query : Query) : Prop where
  filters : ∀ key, query.filters.filter (fun filter => filter.1.key = key) =
    if key ∈ reservedKeys then []
    else (Entries.get? pairs key).toList.map fun value => (Field.ofKey key, value)
  paged : ∀ limit, (∃ number, query.page = some ⟨number, limit⟩) ↔
    limit < Text.wordBound ∧ ∃ text, Entries.get? pairs "limit" = some text ∧
      Text.Writes limit (Text.trim text.toList)

/-- A query depends on the first values of the keys and keeps every one of them: different keys
give filters on different fields. -/
theorem ofPairs_keeps (pairs : List (String × String)) :
    (∀ other : List (String × String),
      (∀ key, Entries.get? other key = Entries.get? pairs key) → ofPairs other = ofPairs pairs) ∧
      Keeps pairs (ofPairs pairs) ∧
      ∀ key other, Field.ofKey key = Field.ofKey other → key = other :=
  ⟨fun _ => ofPairs_congr, ⟨filters_of_key pairs, fun _ => exists_page_ofPairs_iff⟩,
    fun _ _ heq => Field.ofKey_injective heq⟩

/-- Pairs with keys of every sort, some of them twice. -/
def mixedPairs : List (String × String) :=
  [("name", "a"), ("limit", " +007\t"), ("colour", "red"), ("", "b"), ("limit", "x"),
    ("name", "c"), ("sortBy", "name")]

/-- The same without the later values, in another order. -/
def mixedFirsts : List (String × String) :=
  [("sortBy", "name"), ("", "b"), ("colour", "red"), ("limit", " +007\t"), ("name", "a")]

theorem get?_mixedFirsts (key : String) :
    Entries.get? mixedFirsts key = Entries.get? mixedPairs key := by
  simp only [mixedFirsts, mixedPairs, Entries.get?_cons, Entries.get?_nil]
  grind

theorem ofPairs_keeps_mixed :
    (∀ key, Entries.get? mixedFirsts key = Entries.get? mixedPairs key) ∧
      ofPairs mixedFirsts = ofPairs mixedPairs ∧
      (ofPairs mixedPairs).filters.filter (fun filter => filter.1.key = "name") =
        [(.name, "a")] ∧
      (ofPairs mixedPairs).filters.filter (fun filter => filter.1.key = "limit") = [] ∧
      ∃ number, (ofPairs mixedPairs).page = some ⟨number, 7⟩ := by
  obtain ⟨hfirsts, hkeeps, _⟩ := ofPairs_keeps mixedPairs
  refine ⟨get?_mixedFirsts, hfirsts mixedFirsts get?_mixedFirsts, hkeeps.filters "name",
    hkeeps.filters "limit", ?_⟩
  exact (hkeeps.paged 7).mpr ⟨by decide, _, rfl, .signed 2⟩

end Query

end ClusterObjects
