import ClusterObjects.Query.Page
import Mathlib.Logic.ExistsUnique

/-! # The bounds of pages

The bounds of a page are computed in words that stop at the largest one. A total that is a word
itself cuts every bound that stops there, so the bounds are those of unbounded numbers, and the
pages of one limit tile the positions below the total: each ends where the next one starts.
-/

namespace ClusterObjects.Page

variable {total : Nat}

/-- A number that is cut at a word anyway may be cut at the largest word before. -/
theorem min_saturate (htotal : total < Text.wordBound) (n : Nat) :
    min (saturate n) total = min n total := by
  unfold saturate
  omega

theorem range_eq (htotal : total < Text.wordBound) (number limit : Nat) :
    (Page.mk number limit).range total =
      (min ((number - 1) * limit) total,
        min (min ((number - 1) * limit) total + limit) total) := by
  rw [range, offset, min_saturate htotal, min_saturate htotal]

/-- A page ends where it would if nothing were cut off before it. -/
theorem stop_eq (htotal : total < Text.wordBound) {number : Nat} (hnumber : 1 ≤ number)
    (limit : Nat) : ((Page.mk number limit).range total).2 = min (number * limit) total := by
  obtain ⟨before, rfl⟩ := Nat.exists_eq_add_of_le' hnumber
  rw [range_eq htotal, Nat.add_sub_cancel, Nat.succ_mul]
  dsimp only
  omega

/-- A position lies on the page that is found by division. -/
theorem mem_range_iff (htotal : total < Text.wordBound) {limit position number : Nat}
    (hlimit : 1 ≤ limit) (hposition : position < total) (hnumber : 1 ≤ number) :
    ((Page.mk number limit).range total).1 ≤ position ∧
        position < ((Page.mk number limit).range total).2 ↔
      number = position / limit + 1 := by
  have hquotient : number = position / limit + 1 ↔
      (number - 1) * limit ≤ position ∧ position < number * limit := by
    rw [← Nat.le_div_iff_mul_le hlimit, ← Nat.div_lt_iff_lt_mul hlimit]
    omega
  rw [stop_eq htotal hnumber, range_eq htotal, hquotient, Nat.lt_min]
  dsimp only
  omega

/-- The pages of a limit within a total: what their bounds are, that a list of so many items can
be cut at them, that each page ends where the next one starts, and that no position is left out
or on two pages. -/
structure Tiles (limit total : Nat) (range : Nat → Nat × Nat) : Prop where
  exact : ∀ number, range number =
    (min ((max number 1 - 1) * limit) total,
      min (min ((max number 1 - 1) * limit) total + limit) total)
  ordered : ∀ number, (range number).1 ≤ (range number).2 ∧ (range number).2 ≤ total
  cuttable : ∀ number {α : Type} (things : List α), things.length = total →
    (range number).2 ≤ things.length ∧
      (range number).1 ≤ (things.take (range number).2).length
  adjoining : ∀ number, 1 ≤ number → (range number).2 = (range (number + 1)).1
  covering : 1 ≤ limit → ∀ position < total, ∃! number,
    1 ≤ number ∧ number < Text.wordBound ∧
      (range number).1 ≤ position ∧ position < (range number).2

end Page

/-- The pages within a total that a word can count tile it, whatever their limit. -/
theorem tiles_pageRange (limit : Nat) {total : Nat} (htotal : total < Text.wordBound) :
    Page.Tiles limit total fun number => pageRange (some ⟨number, limit⟩) total := by
  have hexact := fun number => Page.range_eq htotal number limit
  have hordered : ∀ number, ((Page.mk number limit).range total).1 ≤
      ((Page.mk number limit).range total).2 ∧ ((Page.mk number limit).range total).2 ≤ total := by
    intro number
    rw [hexact]
    dsimp only
    omega
  refine ⟨fun number => ?_, hordered, fun number _ things hlength => ?_, fun number hnumber => ?_,
    fun hlimit position hposition => ?_⟩
  · have hfirst : max number 1 - 1 = number - 1 := by omega
    rw [hfirst]
    exact hexact number
  · obtain ⟨hstart, hstop⟩ := hordered number
    rw [List.length_take, hlength]
    exact ⟨hstop, Nat.le_min.mpr ⟨hstart, Nat.le_trans hstart hstop⟩⟩
  · change ((Page.mk number limit).range total).2 = ((Page.mk (number + 1) limit).range total).1
    rw [Page.stop_eq htotal hnumber, hexact, Nat.add_sub_cancel]
  · have hmem := fun number hnumber => @Page.mem_range_iff total htotal limit position number
      hlimit hposition hnumber
    refine ⟨position / limit + 1, ⟨Nat.succ_pos _, ?_, (hmem _ (Nat.succ_pos _)).mpr rfl⟩, ?_⟩
    · have hquotient := Nat.div_le_self position limit
      omega
    · rintro number ⟨hnumber, _, hpage⟩
      exact (hmem number hnumber).mp hpage

/-- The bound behind the second page is one too many for a word, and so is the first position of
the third. -/
theorem tiles_pageRange_halves :
    Text.wordBound - 1 < Text.wordBound ∧
      Page.Tiles Text.signedBound (Text.wordBound - 1)
        (fun number => pageRange (some ⟨number, Text.signedBound⟩) (Text.wordBound - 1)) ∧
      pageRange (some ⟨2, Text.signedBound⟩) (Text.wordBound - 1) =
        (Text.signedBound, Text.wordBound - 1) ∧
      pageRange (some ⟨3, Text.signedBound⟩) (Text.wordBound - 1) =
        (Text.wordBound - 1, Text.wordBound - 1) :=
  ⟨by decide, tiles_pageRange _ (by decide), by decide, by decide⟩

end ClusterObjects
