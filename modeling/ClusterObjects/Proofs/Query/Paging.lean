import ClusterObjects.Proofs.Object.Container
import ClusterObjects.Proofs.Query.Listing
import ClusterObjects.Proofs.Query.PageBounds
import Mathlib.Algebra.Order.Floor.Div

/-! # Listings page by page

Each page is listed by a run of its own, which cuts the same sorted objects at its own bounds.
As long as the objects can be counted in a word, no bound that saturates lies within the total,
so the pages are the consecutive windows of the whole listing.
-/

namespace ClusterObjects

namespace Listing

variable {α : Type}

/-- A whole listing and its pages: put one behind the other they are the listing, they all
report its total, those before the last are full and those behind it are empty. -/
structure Reassembles (limit : Nat) (page : Nat → Listing α) (whole : Listing α) : Prop where
  items_flatMap : ((List.range' 1 (whole.total ⌈/⌉ limit)).flatMap fun number =>
    (page number).items) = whole.items
  total_eq : ∀ number, (page number).total = whole.total
  length_eq : ∀ number, 1 ≤ number → number < whole.total ⌈/⌉ limit →
    (page number).items.length = limit
  items_eq_nil : ∀ number, whole.total ⌈/⌉ limit < number → (page number).items = []

/-- A page is a window of the things. -/
theorem cut_some {things : List α} (hlength : things.length < Text.wordBound)
    (number limit : Nat) :
    cut (some ⟨number, limit⟩) things =
      ⟨(things.drop ((number - 1) * limit)).take limit, things.length⟩ := by
  have htake : things.take (min (min ((number - 1) * limit) things.length + limit)
      things.length) = things.take (min ((number - 1) * limit) things.length + limit) := by
    rw [List.take_eq_take_iff]
    omega
  rw [cut, pageRange, Page.range_eq hlength]
  dsimp only
  rw [htake, List.drop_take, Nat.add_sub_cancel_left]
  congr 2
  rw [List.drop_eq_drop_iff]
  omega

/-- The first windows of a list, one behind the other, are the start of the list. -/
theorem flatMap_windows (things : List α) (limit count : Nat) :
    ((List.range' 1 count).flatMap fun number =>
      (things.drop ((number - 1) * limit)).take limit) = things.take (count * limit) := by
  induction count with
  | zero => simp
  | succ count ih =>
    rw [List.range'_1_concat, List.flatMap_append, ih, List.flatMap_singleton,
      Nat.add_sub_cancel_left, Nat.succ_mul, List.take_add]

theorem reassembles_cut {things : List α} {limit : Nat}
    (hlength : things.length < Text.wordBound) (hlimit : 1 ≤ limit) :
    Reassembles limit (fun number => cut (some ⟨number, limit⟩) things) (cut none things) := by
  simp only [cut_none, cut_some hlength]
  constructor
  · rw [flatMap_windows]
    refine List.take_of_length_le ?_
    rw [Nat.mul_comm]
    exact (ceilDiv_le_iff_le_mul hlimit).mp le_rfl
  · exact fun _ => rfl
  · -- Were the window cut short, the pages up to this one would hold all things.
    intro number hnumber hlast
    have hfull : number * limit < things.length := by
      rw [← not_le, Nat.mul_comm, ← ceilDiv_le_iff_le_mul hlimit]
      exact not_le.mpr hlast
    obtain ⟨before, rfl⟩ := Nat.exists_eq_add_of_le' hnumber
    rw [Nat.succ_mul] at hfull
    rw [Nat.add_sub_cancel, List.length_take, List.length_drop]
    omega
  · intro number hlast
    have hbehind : things.length ≤ limit * (number - 1) :=
      (ceilDiv_le_iff_le_mul hlimit).mp (Nat.le_sub_one_of_lt hlast)
    rw [Nat.mul_comm, ← List.drop_eq_nil_iff] at hbehind
    rw [hbehind, List.take_nil]

end Listing

/-- The pages of a listing are the whole listing. A list in memory has fewer items than a word
can count. -/
theorem reassembles_listObjects {objects : List Container} {limit : Nat} (query : Query)
    (hlimit : 1 ≤ limit) (hlength : objects.length < Text.wordBound) :
    Listing.Reassembles limit (fun number => listObjects objects (query.paginate number limit))
      (listObjects objects { query with page := none }) := by
  -- The page is not looked at before the sorted objects are cut.
  have hsorted : (Listing.sort (Listing.precedes Container.outranks query)
      (query.chosen objects)).length < Text.wordBound := by
    rw [(Listing.sort_perm _ _).length_eq]
    exact (chosen_sublist query objects).length_le.trans_lt hlength
  exact Listing.reassembles_cut hsorted hlimit

/-- Objects of some names, one of them without a name. -/
def unsorted : List Container :=
  ["d", "b", "", "e", "a", "c"].map (Container.generic ⟨"", "v1", "ConfigMap"⟩ |>.setText "name")

/-- The query for those with a name, in the order of their names. -/
def Query.byName : Query := Query.all.sort .name true

theorem reassembles_unsorted :
    unsorted.length < Text.wordBound ∧
      (listObjects unsorted (Query.byName.paginate 2 2)).items.map Container.name = ["c", "d"] ∧
      Listing.Reassembles 2
        (fun number => listObjects unsorted (Query.byName.paginate number 2))
        (listObjects unsorted { Query.byName with page := none }) :=
  ⟨by decide, by decide, reassembles_listObjects _ (by decide) (by decide)⟩

end ClusterObjects
