import ClusterObjects.Proofs.Query.Sort
import Mathlib.Data.Prod.Lex
import Mathlib.Data.String.Basic
import Mathlib.Order.WithBot

/-! # The order and the contents of listings

Objects are ranked by their creation time, where none ranks lowest, and then by their name, or
by their name alone. On objects that have a name, to outrank is to have the greater rank, so a
listing is the stable sort by rank of the objects that pass all filters.
-/

namespace ClusterObjects

namespace Instant

theorem parts_injective : Function.Injective parts := by
  rintro ⟨⟨_, _, _⟩, _, _, _, _⟩ ⟨⟨_, _, _⟩, _, _, _, _⟩ h
  simp only [parts, List.cons.injEq, Int.natCast_inj] at h
  obtain ⟨rfl, rfl, rfl, rfl, rfl, rfl, rfl, _⟩ := h
  rfl

/-- An instant among the times that may be missing; a missing one is the earliest. -/
def rank : Option Instant → WithBot (List Int)
  | some t => (t.parts : WithBot (List Int))
  | none => ⊥

theorem rank_injective : Function.Injective rank := by
  intro left right h
  cases left <;> cases right
  · rfl
  · exact absurd h.symm (WithBot.coe_ne_bot)
  · exact absurd h (WithBot.coe_ne_bot)
  · exact congrArg some (parts_injective (WithBot.coe_injective h))

end Instant

namespace Metadata

/-- What a sort field ranks objects by: the creation time and then the name, or the name
alone. -/
def rank (sortBy : SortField) (metadata : Metadata) : WithBot (List Int) ×ₗ String :=
  match sortBy with
  | .name => toLex (⊥, metadata.name)
  | .createTime => toLex (Instant.rank metadata.created, metadata.name)

theorem later_iff (left right : Option Instant) :
    later left right = true ↔ Instant.rank right < Instant.rank left := by
  cases left with
  | none => exact iff_of_false Bool.false_ne_true not_lt_bot
  | some left =>
    cases right with
    | none => exact iff_of_true rfl (WithBot.bot_lt_coe _)
    | some right =>
      change decide (right.parts < left.parts) = true ↔ _
      rw [decide_eq_true_iff]
      exact WithBot.coe_lt_coe.symm

/-- To outrank is to have the greater rank. -/
theorem outranks_iff (left right : Metadata) (sortBy : SortField) :
    left.outranks right sortBy = true ↔ right.rank sortBy < left.rank sortBy := by
  cases sortBy with
  | name =>
    change decide (right.name < left.name) = true ↔ toLex (⊥, _) < toLex (⊥, _)
    rw [decide_eq_true_iff, Prod.Lex.toLex_lt_toLex]
    exact ⟨fun h => Or.inr ⟨rfl, h⟩, fun h => (h.resolve_left (lt_irrefl _)).2⟩
  | createTime =>
    unfold outranks rank
    rw [Prod.Lex.toLex_lt_toLex]
    dsimp only
    split
    next hsame =>
      rw [decide_eq_true_iff, hsame]
      exact ⟨fun h => Or.inr ⟨rfl, h⟩, fun h => (h.resolve_left (lt_irrefl _)).2⟩
    next hdiffers =>
      rw [later_iff]
      refine ⟨Or.inl, fun h => h.resolve_right fun hsame => hdiffers ?_⟩
      exact (Instant.rank_injective hsame.1).symm

end Metadata

namespace Query

/-- Whether the rank of an object comes before that of another, upwards or downwards. -/
def Ranks (query : Query) (left right : Container) : Prop :=
  if query.ascending then left.metadata.rank query.sortBy < right.metadata.rank query.sortBy
  else right.metadata.rank query.sortBy < left.metadata.rank query.sortBy

/-- Whether an object comes before another in the order of a query: by rank in the direction of
the query, and among those of one rank by ascending namespace in either direction. -/
def Before (query : Query) (left right : Container) : Prop :=
  query.Ranks left right ∨
    left.metadata.rank query.sortBy = right.metadata.rank query.sortBy ∧
      left.namespaceName < right.namespaceName

variable {query : Query} {x y z : Container}

theorem rank_eq_of_not_ranks (hxy : ¬ query.Ranks x y) (hyx : ¬ query.Ranks y x) :
    x.metadata.rank query.sortBy = y.metadata.rank query.sortBy := by
  unfold Ranks at hxy hyx
  split at hxy
  next hup =>
    rw [if_pos hup] at hyx
    exact le_antisymm (not_lt.mp hyx) (not_lt.mp hxy)
  next hdown =>
    rw [if_neg hdown] at hyx
    exact le_antisymm (not_lt.mp hxy) (not_lt.mp hyx)

end Query

/-- Objects of one rank have one name. -/
theorem Metadata.name_eq_of_rank_eq {left right : Metadata} {sortBy : SortField}
    (h : left.rank sortBy = right.rank sortBy) : left.name = right.name := by
  cases sortBy with
  | name => exact congrArg (fun rank => (ofLex rank).2) h
  | createTime => exact congrArg (fun rank => (ofLex rank).2) h

namespace Container

variable {left right : Container} {query : Query}

theorem access_of_isNamed {object : Container} (h : object.isNamed = true) :
    object.metadata.access = .ok object.metadata := by
  have hname : object.metadata.name.isEmpty = false := (Bool.not_eq_true' _).mp h
  rw [Metadata.access, hname]
  rfl

theorem outranks_iff (hleft : left.isNamed = true) (hright : right.isNamed = true)
    (sortBy : SortField) :
    left.outranks right sortBy = true ↔
      right.metadata.rank sortBy < left.metadata.rank sortBy := by
  unfold outranks
  rw [access_of_isNamed hleft, access_of_isNamed hright]
  exact Metadata.outranks_iff _ _ _

/-- Objects that have a name are ranked by a strict weak order. -/
theorem weakOrder_outranks (sortBy : SortField) :
    Listing.WeakOrder (outranks · · sortBy) fun object => object.isNamed = true := by
  constructor
  · intro x y hx hy hxy
    rw [← Bool.not_eq_true, outranks_iff hy hx]
    exact ((outranks_iff hx hy sortBy).mp hxy).asymm
  · intro x y z hx hy hz hxy hyz
    rw [← Bool.not_eq_true, outranks_iff hx hy, not_lt] at hxy
    rw [← Bool.not_eq_true, outranks_iff hy hz, not_lt] at hyz
    rw [← Bool.not_eq_true, outranks_iff hx hz, not_lt]
    exact hxy.trans hyz

/-- Among objects that have a name, precedence goes by rank. -/
theorem precedes_iff (hleft : left.isNamed = true) (hright : right.isNamed = true) :
    Listing.precedes outranks query left right = true ↔ query.Ranks left right := by
  rw [Listing.precedes_eq_prefers (weakOrder_outranks query.sortBy) hleft hright]
  unfold Listing.prefers Query.Ranks
  split
  · exact outranks_iff hright hleft query.sortBy
  · exact outranks_iff hleft hright query.sortBy

end Container

/-! ## What a listing contains -/

namespace Listing

/-- The page of a list of things, with the number of all of them. -/
def cut {α : Type} (page : Option Page) (things : List α) : Listing α :=
  let (start, stop) := pageRange page things.length
  ⟨(things.take stop).drop start, things.length⟩

theorem cut_none {α : Type} (things : List α) : cut none things = ⟨things, things.length⟩ := by
  simp only [cut, pageRange, List.take_length, List.drop_zero]

end Listing

/-- The objects that a query lists, in the order in which they are given. -/
def Query.chosen (query : Query) (objects : List Container) : List Container :=
  Listing.passing (Filter.accepts (Filter.selectorOf query)) query
    (objects.filter Container.isNamed)

section

variable {query : Query} {objects : List Container}

theorem mem_chosen_iff {object : Container} :
    object ∈ query.chosen objects ↔ object ∈ objects ∧ object.isNamed = true ∧
      ∀ filter ∈ query.filters,
        Filter.accepts (Filter.selectorOf query) object filter.1 filter.2 = true := by
  unfold Query.chosen Listing.passing
  rw [List.mem_filter, List.mem_filter, List.all_eq_true, and_assoc]

theorem isNamed_of_mem_chosen {object : Container} (h : object ∈ query.chosen objects) :
    object.isNamed = true :=
  (mem_chosen_iff.mp h).2.1

theorem chosen_sublist (query : Query) (objects : List Container) :
    (query.chosen objects).Sublist objects :=
  List.filter_sublist.trans List.filter_sublist

/-- A listing is the page of the sorted objects that are chosen. -/
theorem listObjects_eq_cut (objects : List Container) (query : Query) :
    listObjects objects query = .cut query.page
      (Listing.sort (Listing.precedes Container.outranks query) (query.chosen objects)) := rfl

/-- Without pagination it has all of them. -/
theorem listObjects_eq (hpage : query.page = none) :
    (listObjects objects query).items =
        Listing.sort (Listing.precedes Container.outranks query) (query.chosen objects) ∧
      (listObjects objects query).total = (listObjects objects query).items.length := by
  rw [listObjects_eq_cut, hpage, Listing.cut_none]
  exact ⟨rfl, rfl⟩

theorem perm_listObjects (hpage : query.page = none) :
    (listObjects objects query).items.Perm (query.chosen objects) := by
  rw [(listObjects_eq hpage).1]
  exact Listing.sort_perm _ _

/-- Objects that are given in the order of their namespaces where their names are the same are
listed in the order of the query. -/
theorem pairwise_listObjects (hpage : query.page = none)
    (hgiven : objects.Pairwise fun x y => x.name = y.name → x.namespaceName < y.namespaceName) :
    (listObjects objects query).items.Pairwise query.Before := by
  rw [(listObjects_eq hpage).1]
  have hnamed : ∀ object ∈ query.chosen objects, object.isNamed = true :=
    fun object hobject => isNamed_of_mem_chosen hobject
  have hsorted := Listing.pairwise_sort (Container.weakOrder_outranks query.sortBy).precedes hnamed
    (hgiven.sublist (chosen_sublist query objects))
  refine hsorted.imp_of_mem fun {x y} hx hy hahead => ?_
  have hx := hnamed x ((Listing.sort_perm _ _).mem_iff.mp hx)
  have hy := hnamed y ((Listing.sort_perm _ _).mem_iff.mp hy)
  obtain ⟨hbehind, hcases⟩ := hahead
  rw [← Bool.not_eq_true, Container.precedes_iff hy hx] at hbehind
  rw [Container.precedes_iff hx hy] at hcases
  by_cases hranks : query.Ranks x y
  · exact Or.inl hranks
  · -- Neither precedes the other, so they tie, and ties have one name.
    have htied := Query.rank_eq_of_not_ranks hranks hbehind
    exact Or.inr ⟨htied, hcases.resolve_left hranks (Metadata.name_eq_of_rank_eq htied)⟩

/-! ## One more filter -/

/-- Whether an object passes a filter on its own. -/
def Filter.admits (field : Field) (value : String) (object : Container) : Bool :=
  accepts (selectorOf (Query.all.filter field value)) object field value

/-- Only a field selector is read from the query. -/
theorem Filter.accepts_of_ne {field : Field} (hfield : field ≠ .fieldSelector)
    (first second : Option FieldSelector) (object : Container) (value : String) :
    accepts first object field value = accepts second object field value := by
  cases field with
  | fieldSelector => contradiction
  | _ => rfl

theorem Filter.selectorOf_filter_of_ne {field : Field} (hfield : field ≠ .fieldSelector)
    (value : String) : selectorOf (query.filter field value) = selectorOf query := by
  unfold selectorOf Query.filter
  rw [Entries.get?_insert, if_neg hfield]

/-- The filter of a query on a field accepts what it admits on its own. -/
theorem Filter.accepts_eq_admits {field : Field} {value : String}
    (hfound : query.filters.get? field = some value) (object : Container) :
    accepts (selectorOf query) object field value = admits field value object := by
  by_cases hfield : field = .fieldSelector
  · subst hfield
    have halone : (Query.all.filter .fieldSelector value).filters.get? .fieldSelector =
        some value := (Entries.get?_insert _ _ _ _).trans (if_pos rfl)
    unfold admits selectorOf
    rw [hfound, halone]
  · exact accepts_of_ne hfield _ _ _ _

/-- A filter that is no field selector reads the metadata of an object with a name. -/
theorem Filter.admits_of_isNamed {field : Field} (hfield : field ≠ .fieldSelector)
    (value : String) {object : Container} (hnamed : object.isNamed = true) :
    admits field value object = acceptsMetadata object.metadata field value := by
  unfold admits accepts
  rw [Container.access_of_isNamed hnamed]
  cases field with
  | fieldSelector => contradiction
  | _ => rfl

/-- A filter on a field without one is added to the others. -/
theorem mem_filters_filter {field : Field} {value : String}
    (hfree : query.filters.get? field = none) {filter : Field × String} :
    filter ∈ (query.filter field value).filters ↔
      filter = (field, value) ∨ filter ∈ query.filters :=
  (Entries.perm_insert hfree value).mem_iff.trans List.mem_cons

/-- With one more filter, those of the chosen objects are chosen that pass it. -/
theorem chosen_filter {field : Field} {value : String}
    (hfree : query.filters.get? field = none) :
    (query.filter field value).chosen objects =
      (query.chosen objects).filter (Filter.admits field value) := by
  have hadded : ∀ object, Filter.accepts (Filter.selectorOf (query.filter field value)) object
      field value = Filter.admits field value object :=
    Filter.accepts_eq_admits ((Entries.get?_insert _ _ _ _).trans (if_pos rfl))
  -- The others are read as before: a new selector means that there was none.
  have hothers : ∀ object, ∀ filter ∈ query.filters,
      Filter.accepts (Filter.selectorOf (query.filter field value)) object filter.1 filter.2 =
        Filter.accepts (Filter.selectorOf query) object filter.1 filter.2 := by
    intro object filter hfilter
    by_cases hfield : field = .fieldSelector
    · have hne : filter.1 ≠ .fieldSelector := fun heq =>
        Entries.get?_ne_none_of_mem hfilter (by rw [heq, ← hfield, hfree])
      exact Filter.accepts_of_ne hne _ _ _ _
    · rw [Filter.selectorOf_filter_of_ne hfield]
  unfold Query.chosen Listing.passing
  conv_rhs => rw [List.filter_filter]
  refine List.filter_congr fun object _ => ?_
  rw [Bool.eq_iff_iff, Bool.and_eq_true, List.all_eq_true, List.all_eq_true]
  constructor
  · intro h
    refine ⟨(hadded object).symm.trans (h _ ((mem_filters_filter hfree).mpr (Or.inl rfl))),
      fun filter hfilter => ?_⟩
    exact (hothers object filter hfilter).symm.trans
      (h filter ((mem_filters_filter hfree).mpr (Or.inr hfilter)))
  · rintro ⟨hfirst, hrest⟩ filter hfilter
    rcases (mem_filters_filter hfree).mp hfilter with rfl | hfilter
    · exact (hadded object).trans hfirst
    · exact (hothers object filter hfilter).trans (hrest filter hfilter)

/-- A filter on the namespace lists what a query lists of the objects in that namespace. -/
theorem listObjects_filter_namespace {namespaceName : String}
    (hfree : query.filters.get? .namespaceName = none) :
    listObjects objects (query.filter .namespaceName namespaceName) =
      listObjects (objects.filter fun object => object.namespaceName == namespaceName) query := by
  have hchosen : (query.filter .namespaceName namespaceName).chosen objects =
      query.chosen (objects.filter fun object => object.namespaceName == namespaceName) := by
    rw [chosen_filter hfree]
    unfold Query.chosen Listing.passing
    rw [List.filter_filter, List.filter_filter, List.filter_filter, List.filter_filter]
    refine List.filter_congr fun object _ => ?_
    cases hnamed : object.isNamed with
    | false => simp
    | true =>
      have hadmits : Filter.admits .namespaceName namespaceName object =
          (object.namespaceName == namespaceName) :=
        Filter.admits_of_isNamed (by decide) namespaceName hnamed
      simp only [hadmits, Bool.true_and, Bool.and_comm]
  rw [listObjects_eq_cut, listObjects_eq_cut, hchosen]
  rfl

end

end ClusterObjects
