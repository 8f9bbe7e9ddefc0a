import ClusterObjects.Proofs.Json.Restoration

/-! # The law of merging

RFC 7386 tells what merging a patch leaves under each key: nothing where the patch holds null, the
merge of what the patch holds where it holds anything else, and what the target holds where the
patch is silent. There is one way only to merge by this law, and by the law alone a patch that is
merged a second time changes nothing.
-/

namespace ClusterObjects.Json

/-- What merging a patch into a target makes of it. Where the target holds nothing, what the patch
holds is merged into null, which like anything but an object counts as an empty object. -/
structure MergeLaw (merge : Json → Json → Json) : Prop where
  wellFormed : ∀ {target patch : Json}, target.WellFormed → patch.WellFormed →
    (merge target patch).WellFormed
  replaces : ∀ {target patch : Json}, patch.isObject = false → merge target patch = patch
  isObject : ∀ {target : Json} {patch : Fields}, (merge target (.obj patch)).isObject = true
  silent : ∀ {target : Json} {patch : Fields} {key : String}, target.WellFormed →
    (obj patch).WellFormed → patch.get? key = none →
    (merge target (.obj patch)).get? key = target.get? key
  removes : ∀ {target : Json} {patch : Fields} {key : String}, target.WellFormed →
    (obj patch).WellFormed → patch.get? key = some .null →
    (merge target (.obj patch)).get? key = none
  merges : ∀ {target member : Json} {patch : Fields} {key : String}, target.WellFormed →
    (obj patch).WellFormed → patch.get? key = some member → member ≠ .null →
    (merge target (.obj patch)).get? key = some (merge ((target.get? key).getD .null) member)

namespace MergeLaw

variable {merge other : Json → Json → Json} {target patch : Json}

/-- The law determines the merge. -/
theorem unique (h : MergeLaw merge) (hother : MergeLaw other) (htarget : target.WellFormed)
    (hpatch : patch.WellFormed) : merge target patch = other target patch := by
  induction patch using object_induction generalizing target with
  | other patch hscalar => rw [h.replaces hscalar, hother.replaces hscalar]
  | obj patch ih =>
    apply eq_of_get? (h.wellFormed htarget hpatch) (hother.wellFormed htarget hpatch)
      h.isObject hother.isObject
    intro key
    cases hmember : Entries.get? patch key with
    | none => rw [h.silent htarget hpatch hmember, hother.silent htarget hpatch hmember]
    | some member =>
      by_cases hnull : member = .null
      · subst hnull
        rw [h.removes htarget hpatch hmember, hother.removes htarget hpatch hmember]
      · have hmem := (Entries.get?_eq_some_iff hpatch.ascending).mp hmember
        rw [h.merges htarget hpatch hmember hnull, hother.merges htarget hpatch hmember hnull,
          ih (key, member) hmem (htarget.getD_get? key) (hpatch.member hmember)]

/-- Merging a patch again changes nothing. -/
theorem idempotent (h : MergeLaw merge) (htarget : target.WellFormed) (hpatch : patch.WellFormed) :
    merge (merge target patch) patch = merge target patch := by
  induction patch using object_induction generalizing target with
  | other patch hscalar => rw [h.replaces hscalar, h.replaces hscalar]
  | obj patch ih =>
    have hmerged := h.wellFormed htarget hpatch
    apply eq_of_get? (h.wellFormed hmerged hpatch) hmerged h.isObject h.isObject
    intro key
    cases hmember : Entries.get? patch key with
    | none => rw [h.silent hmerged hpatch hmember]
    | some member =>
      by_cases hnull : member = .null
      · subst hnull
        rw [h.removes hmerged hpatch hmember, h.removes htarget hpatch hmember]
      · -- The second merge finds the result of the first, into which the member was merged.
        have hmem := (Entries.get?_eq_some_iff hpatch.ascending).mp hmember
        rw [h.merges hmerged hpatch hmember hnull, h.merges htarget hpatch hmember hnull,
          Option.getD_some,
          ih (key, member) hmem (htarget.getD_get? key) (hpatch.member hmember)]

end MergeLaw

theorem mergeLaw_applyPatch : MergeLaw applyPatch where
  wellFormed htarget hpatch := htarget.applyPatch hpatch
  replaces hscalar := applyPatch_of_not_isObject hscalar _
  isObject := rfl
  silent htarget hpatch hmember := by
    rw [get?_applyPatch htarget hpatch, hmember]
  removes htarget hpatch hmember := by
    rw [get?_applyPatch htarget hpatch, hmember]
    rfl
  merges htarget hpatch hmember hnull := by
    rw [get?_applyPatch htarget hpatch, hmember]
    exact patched_of_ne_null hnull

/-- Applying a patch is the merge of the law: it obeys the law, and whatever obeys the law gives
the same results. So a patch applied twice does what it does once; and a null that is a member of
the result, or of an object below it, is one that the target holds there too. -/
theorem applyPatch_lawful :
    MergeLaw applyPatch ∧
      (∀ merge, MergeLaw merge → ∀ target patch : Json, target.WellFormed → patch.WellFormed →
        merge target patch = target.applyPatch patch) ∧
      ∀ target patch : Json, target.WellFormed → patch.WellFormed →
        (target.applyPatch patch).applyPatch patch = target.applyPatch patch ∧
          (target.applyPatch patch).NullsWithin target := by
  refine ⟨mergeLaw_applyPatch, fun merge h target patch htarget hpatch => ?_,
    fun target patch htarget hpatch => ⟨mergeLaw_applyPatch.idempotent htarget hpatch, ?_⟩⟩
  · exact h.unique mergeLaw_applyPatch htarget hpatch
  · cases hobject : patch.isObject with
    | true => exact nullsWithin_applyPatch htarget hpatch hobject
    | false =>
      rw [applyPatch_of_not_isObject hobject]
      exact nullsWithin_of_not_isObject hobject target

/-- A patch of `withNull` that removes members, one of them below another, and makes objects of a
scalar and of nothing in order to remove members of theirs. -/
def removing : Json :=
  ofFields [("dropped", .null), ("kept", ofFields [("zero", .null)]),
    ("new", ofFields [("none", .null)]), ("scalar", ofFields [("none", .null)])]

/-- Of the nulls of the patch none arrives, and that of the target stays. -/
theorem applyPatch_lawful_removing :
    withNull.WellFormed ∧ removing.WellFormed ∧
      (withNull.applyPatch removing).at? ["kept", "none"] = some .null ∧
      (withNull.applyPatch removing).get? "dropped" = none ∧
      (withNull.applyPatch removing).get? "new" = some (.obj []) ∧
      (withNull.applyPatch removing).applyPatch removing = withNull.applyPatch removing ∧
      (withNull.applyPatch removing).NullsWithin withNull := by
  have htarget : withNull.WellFormed := by decide +kernel
  have hpatch : removing.WellFormed := by decide +kernel
  exact ⟨htarget, hpatch, rfl, applyPatch_lawful.1.removes htarget hpatch rfl, rfl,
    applyPatch_lawful.2.2 withNull removing htarget hpatch⟩

end ClusterObjects.Json
