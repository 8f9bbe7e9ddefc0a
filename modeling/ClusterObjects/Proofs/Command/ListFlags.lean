import ClusterObjects.Command.ListFlags
import ClusterObjects.Proofs.Query.Pairs
import ClusterObjects.Proofs.Results

/-! # Flags that are honoured

A listing has the page, the order and the selector of its flags and the filters that are given
with them, each with the whole text after the first equals sign. This is so exactly if no filter
is given under a key with a meaning of its own: such a filter is no filter of the query, and it
comes before the flag that it stands in for.
-/

namespace ClusterObjects.ListFlags

variable {flags : ListFlags} {given : List (String × String)} {n : Nat}

/-- The text of a filter. -/
def written (pair : String × String) : String := pair.1 ++ "=" ++ pair.2

/-- The texts write filters with these keys and values, and no key is given twice. -/
structure Lists (given : List (String × String)) (texts : List String) : Prop where
  texts : texts = given.map written
  keys : ∀ pair ∈ given, '=' ∉ pair.1.toList
  distinct : (given.map Prod.fst).Nodup

/-- The numbers of the flags are words. -/
structure Bounded (flags : ListFlags) : Prop where
  limit : ∀ n ∈ flags.limit, n < Text.wordBound
  page : ∀ n ∈ flags.page, n < Text.wordBound

/-- The query does what each flag says and has the given filters, no more and no fewer. -/
structure Honours (flags : ListFlags) (given : List (String × String)) (query : Query) :
    Prop where
  page : query.page = flags.limit.map fun limit => ⟨flags.page.getD 1, limit⟩
  ascending : query.ascending = flags.ascending
  sortBy : query.sortBy = (flags.orderBy.map SortField.ofKey).getD .createTime
  labelSelector : query.labelSelector = flags.selector.filter fun text => !text.isEmpty
  filters : query.filters.Perm (given.map Query.filterOf)

/-! ## Texts -/

theorem filterPairs_map_written (h : ∀ pair ∈ given, '=' ∉ pair.1.toList) :
    filterPairs (given.map written) = .ok given := by
  induction given with
  | nil => rfl
  | cons pair rest ih =>
    obtain ⟨key, value⟩ := pair
    obtain ⟨hkey, hrest⟩ := List.forall_mem_cons.mp h
    have hcut : Text.cut ['='] (written (key, value)).toList = some (key.toList, value.toList) := by
      refine Text.cut_singleton_eq_some_iff.mpr ⟨?_, hkey⟩
      simp [written]
    rw [List.map_cons, filterPairs, hcut, ih hrest]
    simp

/-- A word that is written as a flag is read back. -/
theorem trimmedWord?_numberText (h : n < Text.wordBound) :
    Query.trimmedWord? (numberText n) = some n := by
  have hblank : ∀ c ∈ Text.decimal n, Text.isBlank c = false := fun c hc =>
    Text.isBlank_of_isDigit (Text.isDigit_of_mem_decimal hc)
  unfold Query.trimmedWord? numberText
  rw [String.toList_ofList, Text.trim_eq_self (fun c hc => hblank c (List.mem_of_head? hc))
    (fun c hc => hblank c (List.mem_of_getLast? hc)), Text.word?_decimal h]

/-! ## Flags as pairs -/

theorem get?_map_toList (text? : Option String) (key other : String) :
    Entries.get? (text?.toList.map fun text => (key, text)) other =
      if key = other then text? else .none := by
  cases text? <;> simp [Entries.get?_cons]

/-- The value that the flags give a key. -/
theorem get?_flagPairs (flags : ListFlags) (key : String) :
    Entries.get? flags.flagPairs key =
      if key = "limit" then flags.limit.map numberText
      else if key = "page" then flags.limit.map fun _ => numberText (flags.page.getD 1)
      else if key = "ascending" then (if flags.ascending then some "true" else .none)
      else if key = "orderBy" then flags.orderBy
      else if key = "labelSelector" then flags.selector
      else .none := by
  unfold flagPairs
  -- Each part has a value for its own keys only.
  cases flags.limit <;> cases flags.ascending <;>
    simp only [Entries.get?_append, get?_map_toList, Entries.get?_cons, Entries.get?_nil,
      Bool.false_eq_true, if_false, if_true] <;> grind

theorem get?_flagPairs_of_not_mem {key : String} (h : key ∉ Query.reservedKeys) :
    Entries.get? flags.flagPairs key = .none := by
  simp only [Query.reservedKeys, List.mem_cons, not_or] at h
  obtain ⟨hlimit, hpage, hascending, horder, _, hselector, _⟩ := h
  rw [get?_flagPairs, if_neg hlimit, if_neg hpage, if_neg hascending, if_neg horder,
    if_neg hselector]

/-! ## The query -/

/-- The query that given filters and flags build. -/
theorem build_eq_ok (h : Lists given flags.filters) :
    flags.build = .ok (.ofPairs (given ++ flags.flagPairs)) := by
  unfold build
  rw [h.texts, filterPairs_map_written h.keys]

section

variable (hgiven : ∀ pair ∈ given, pair.1 ∉ Query.reservedKeys)
include hgiven

theorem get?_given {key : String} (hkey : key ∈ Query.reservedKeys) :
    Entries.get? given key = .none :=
  Entries.get?_eq_none_of_forall_ne fun pair hpair heq => hgiven pair hpair (heq ▸ hkey)

/-- Under a reserved key only the flags have a value. -/
theorem get?_given_append {key : String} (hkey : key ∈ Query.reservedKeys) :
    Entries.get? (given ++ flags.flagPairs) key = Entries.get? flags.flagPairs key := by
  rw [Entries.get?_append, get?_given hgiven hkey, Option.none_or]

/-- The pairs whose keys are not reserved are the given ones. -/
theorem perm_unreserved (hdistinct : (given.map Prod.fst).Nodup) :
    (Query.unreserved (given ++ flags.flagPairs)).Perm given := by
  refine Entries.perm_of_get?_eq (Query.nodup_unreserved _) hdistinct fun key => ?_
  rw [Query.get?_unreserved]
  split
  next hkey => exact (get?_given hgiven hkey).symm
  next hkey => rw [Entries.get?_append, get?_flagPairs_of_not_mem hkey, Option.or_none]

/-- Filters with keys of their own leave the flags as they are. -/
theorem honours_of_unreserved (hdistinct : (given.map Prod.fst).Nodup) (hbounded : Bounded flags) :
    Honours flags given (.ofPairs (given ++ flags.flagPairs)) where
  page := by
    have hpage : flags.page.getD 1 < Text.wordBound := by
      cases hnumber : flags.page with
      | none => decide
      | some number => exact hbounded.page number hnumber
    simp only [Query.ofPairs_eq]
    rw [get?_given_append hgiven (by decide), get?_given_append hgiven (by decide),
      get?_flagPairs, get?_flagPairs]
    cases hlimit : flags.limit with
    | none => rfl
    | some limit =>
      simp [trimmedWord?_numberText hpage, trimmedWord?_numberText (hbounded.limit limit hlimit)]
  ascending := by
    simp only [Query.ofPairs_eq]
    rw [get?_given_append hgiven (by decide), get?_flagPairs]
    have hyes : Query.affirms "true" = true := by decide +kernel
    cases flags.ascending <;> simp [hyes]
  sortBy := by
    simp only [Query.ofPairs_eq]
    rw [get?_given_append hgiven (by decide), get?_given_append hgiven (by decide),
      get?_flagPairs, get?_flagPairs]
    simp
  labelSelector := by
    simp only [Query.ofPairs_eq]
    rw [get?_given_append hgiven (by decide), get?_flagPairs]
    simp
  filters := (Query.perm_filters_ofPairs _).trans
    ((perm_unreserved hgiven hdistinct).map Query.filterOf)

end

/-- A filter with a reserved key is none of the query. -/
theorem unreserved_of_honours {pairs : List (String × String)}
    (h : Honours flags given (.ofPairs pairs)) : ∀ pair ∈ given, pair.1 ∉ Query.reservedKeys := by
  intro pair hpair hkey
  have hnone := Query.filters_of_key pairs pair.1
  rw [if_pos hkey, List.filter_eq_nil_iff] at hnone
  have hmem := h.filters.mem_iff.mpr (List.mem_map_of_mem hpair)
  exact hnone _ hmem (decide_eq_true (Field.key_ofKey pair.1))

/-- The query of a listing does what each flag says and has the given filters exactly if none of
them is given under a key with a meaning of its own. -/
theorem build_honours_iff (flags : ListFlags) (given : List (String × String))
    (hlists : Lists given flags.filters) (hbounded : Bounded flags) :
    ∃ query, flags.build = .ok query ∧
      (Honours flags given query ↔ ∀ pair ∈ given, pair.1 ∉ Query.reservedKeys) :=
  ⟨_, build_eq_ok hlists, unreserved_of_honours, fun hgiven =>
    honours_of_unreserved hgiven hlists.distinct hbounded⟩

/-- Every flag, with filters one of whose values holds an equals sign. -/
def webFlags : ListFlags :=
  ⟨["name=web", "label=app=web"], some "tier=front", some 2, some 10, true, some "name", .none⟩

def webFilters : List (String × String) := [("name", "web"), ("label", "app=web")]

theorem build_honours_webFlags :
    Lists webFilters webFlags.filters ∧ Bounded webFlags ∧
      ∃ query, webFlags.build = .ok query ∧ Honours webFlags webFilters query := by
  have hlists : Lists webFilters webFlags.filters :=
    ⟨by decide +kernel, by decide +kernel, by decide⟩
  have hbounded : Bounded webFlags := ⟨by decide, by decide⟩
  obtain ⟨query, hbuild, hiff⟩ := build_honours_iff webFlags webFilters hlists hbounded
  exact ⟨hlists, hbounded, query, hbuild, hiff.mpr (by decide)⟩

/-- A filter for the key of the limit. -/
def limitFlags : ListFlags := ⟨["limit=3"], .none, .none, some 10, false, .none, .none⟩

/-- The filter stands in for the flag: the page has its limit, and nothing is filtered. -/
theorem not_honours_limitFlags :
    Lists [("limit", "3")] limitFlags.filters ∧ Bounded limitFlags ∧
      limitFlags.build = .ok (Query.all.paginate 1 3) ∧
      ¬∃ query, limitFlags.build = .ok query ∧ Honours limitFlags [("limit", "3")] query := by
  have hbuild : limitFlags.build = .ok (Query.all.paginate 1 3) :=
    eq_ok_of_toOption (by decide +kernel)
  refine ⟨⟨by decide +kernel, by decide, by decide⟩, ⟨by decide, by decide⟩, hbuild, ?_⟩
  rintro ⟨query, hquery, honours⟩
  obtain rfl := Except.ok.inj (hbuild.symm.trans hquery)
  exact absurd honours.page (by decide)

end ClusterObjects.ListFlags
