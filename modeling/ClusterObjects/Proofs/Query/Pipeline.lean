import ClusterObjects.Proofs.Object.Container
import ClusterObjects.Proofs.Query.Listing

/-! # Filter, sort and slice

A listing is determined by three steps: what passes all filters is counted, put in order and cut
at the bounds of the page. The order is settled by what outranks what and, among things of which
neither outranks the other, by the order in which they were given; nothing else in the things
decides about their places. So whether something is left out before the sorting or after it makes
no difference, and one more filter on a query takes things out of its result and moves none.
-/

namespace ClusterObjects

namespace Listing

variable {α : Type} {outranks : α → α → SortField → Bool} {accepts : α → Field → String → Bool}
  {query : Query} {things : List α}

/-- Every filter of a query accepts a thing. -/
def Passes (accepts : α → Field → String → Bool) (query : Query) (thing : α) : Prop :=
  ∀ filter ∈ query.filters, accepts thing filter.1 filter.2 = true

instance (accepts : α → Field → String → Bool) (query : Query) (thing : α) :
    Decidable (Passes accepts query thing) :=
  inferInstanceAs (Decidable (∀ filter ∈ query.filters, accepts thing filter.1 filter.2 = true))

/-- A listing of things: the number of those that pass, and of the only way to sort those stably
the slice at the bounds of the page. -/
structure Pipeline (outranks : α → α → SortField → Bool) (accepts : α → Field → String → Bool)
    (query : Query) (things : List α) (listing : Listing α) : Prop where
  total : listing.total = (things.filter (Passes accepts query ·)).length
  items : ∃ sorted,
    (∀ other, StablySorted (prefers outranks query) (things.filter (Passes accepts query ·))
      other ↔ other = sorted) ∧
    listing.items = (sorted.take (pageRange query.page listing.total).2).drop
      (pageRange query.page listing.total).1

theorem passing_eq_filter :
    passing accepts query things = things.filter (Passes accepts query ·) := by
  unfold passing
  refine List.filter_congr fun thing _ => ?_
  rw [Bool.eq_iff_iff, List.all_eq_true, decide_eq_true_iff]
  rfl

/-- The listing of things that are ranked by a strict weak order is filter, sort and slice. -/
theorem pipeline_of (h : WeakOrder (outranks · · query.sortBy) (· ∈ things)) :
    Pipeline outranks accepts query things (of outranks accepts query things) := by
  have hkept : ∀ thing ∈ things.filter (Passes accepts query ·), thing ∈ things :=
    fun thing hthing => (List.mem_filter.mp hthing).1
  have htotal : (of outranks accepts query things).total =
      (things.filter (Passes accepts query ·)).length := by
    rw [← passing_eq_filter]
    exact (sort_perm _ _).length_eq
  have hsorted : StablySorted (prefers outranks query) (things.filter (Passes accepts query ·))
      (sort (precedes outranks query) (passing accepts query things)) := by
    rw [passing_eq_filter]
    exact (stablySorted_sort h.precedes hkept).congr fun x hx y hy =>
      (precedes_eq_prefers h (hkept x hx) (hkept y hy)).symm
  refine ⟨htotal, _, fun other => ⟨fun hother => ?_, ?_⟩, rfl⟩
  · exact hother.unique h.prefers hkept hsorted
  · rintro rfl
    exact hsorted

end Listing

/-- Listing things that a strict weak order ranks is to filter, to sort stably and to slice, for
things of any kind. Such an order ranks the objects that have a name, and listing objects is the
same once those without a name are left out. -/
theorem pipeline_listing :
    (∀ {α : Type} (outranks : α → α → SortField → Bool) (accepts : α → Field → String → Bool)
      (query : Query) (things : List α),
      Listing.WeakOrder (outranks · · query.sortBy) (· ∈ things) →
      Listing.Pipeline outranks accepts query things
        (Listing.of outranks accepts query things)) ∧
    (∀ sortBy : SortField,
      Listing.WeakOrder (Container.outranks · · sortBy) fun object => object.isNamed = true) ∧
    ∀ (objects : List Container) (query : Query),
      Listing.Pipeline Container.outranks (Filter.accepts (Filter.selectorOf query)) query
        (objects.filter Container.isNamed) (listObjects objects query) := by
  refine ⟨fun outranks accepts query things => Listing.pipeline_of,
    Container.weakOrder_outranks, fun objects query => ?_⟩
  have hranked := Container.weakOrder_outranks query.sortBy
  exact Listing.pipeline_of (hranked.mono fun object hobject => (List.mem_filter.mp hobject).2)

/-- The query for the second page of two, upwards, of what is not one. -/
def Query.secondPage : Query := (Query.all.filter .name "1").sort .name true |>.paginate 2 2

/-- Numbers by their size without the sign, which leaves opposite numbers in their order. -/
theorem pipeline_listing_signed :
    let outranks := fun (x y : Int) (_ : SortField) => decide (y.natAbs < x.natAbs)
    let accepts := fun (x : Int) (_ : Field) (_ : String) => x != 1
    let listing := Listing.of outranks accepts .secondPage [3, -2, 1, -3, 2, -1, 0]
    listing.items = [-2, 2] ∧ listing.total = 6 ∧
      Listing.Pipeline outranks accepts .secondPage [3, -2, 1, -3, 2, -1, 0] listing := by
  refine ⟨by decide, by decide, pipeline_listing.1 _ _ _ _ ⟨?_, ?_⟩⟩
  · intro x y _ _ hxy
    rw [decide_eq_true_iff] at hxy
    exact decide_eq_false (by omega)
  · intro x y z _ _ _ hxy hyz
    rw [decide_eq_false_iff_not] at hxy hyz
    exact decide_eq_false (by omega)

/-- One more filter on a query without pages keeps what passes it of the items, in the same order,
and makes the total no greater. -/
theorem listObjects_filter (objects : List Container) {query : Query} {field : Field}
    (value : String) (hpage : query.page = none) (hfree : query.filters.get? field = none) :
    (listObjects objects (query.filter field value)).items =
        (listObjects objects query).items.filter (Filter.admits field value) ∧
      (listObjects objects (query.filter field value)).total ≤
        (listObjects objects query).total := by
  have hnarrowed : (query.filter field value).page = none := hpage
  have hnamed : ∀ object ∈ query.chosen objects, object.isNamed = true :=
    fun object hobject => isNamed_of_mem_chosen hobject
  have hkept : (listObjects objects (query.filter field value)).items =
      (listObjects objects query).items.filter (Filter.admits field value) := by
    rw [(listObjects_eq hnarrowed).1, (listObjects_eq hpage).1, chosen_filter hfree]
    exact Listing.sort_filter (Container.weakOrder_outranks query.sortBy).precedes hnamed _
  refine ⟨hkept, ?_⟩
  rw [(listObjects_eq hnarrowed).2, (listObjects_eq hpage).2, hkept]
  exact List.length_filter_le _ _

/-- Objects of one name and one without, in namespaces that are not in order. -/
def namesakes : List Container :=
  [("a", "z"), ("a", "x"), ("b", "y"), ("", "x"), ("a", "y")].map fun (name, namespaceName) =>
    ((Container.generic ⟨"", "v1", "ConfigMap"⟩).setText "name" name).setText "namespace"
      namespaceName

/-- What is left out does not change the order of the others. -/
theorem listObjects_filter_namesakes :
    let query := Query.all.sort .name false
    let field := Field.fieldSelector
    query.page = none ∧ query.filters.get? field = none ∧
      (listObjects namesakes query).items.map Container.namespaceName = ["y", "z", "x", "y"] ∧
      (listObjects namesakes (query.filter field "metadata.namespace!=x")).items.map
        Container.namespaceName = ["y", "z", "y"] ∧
      (listObjects namesakes (query.filter field "metadata.namespace!=x")).items =
        (listObjects namesakes query).items.filter
          (Filter.admits field "metadata.namespace!=x") :=
  ⟨rfl, rfl, by decide, by decide, (listObjects_filter namesakes _ rfl rfl).1⟩

end ClusterObjects
