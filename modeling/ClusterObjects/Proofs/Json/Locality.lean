import ClusterObjects.Proofs.Json.Restoration

/-! # What a difference leaves alone

The patch from one document to another may be applied to a third one, which differs
from both. Wherever the two documents agree, the patch leaves the third as it is, even
where it has to make an object of what was none on its way to a member that differs. A
patch that changes nothing comes from equal documents only.
-/

namespace ClusterObjects.Json

variable {old new target : Json}

/-- Where the two documents hold equal values, the patch between them leaves a target alone: the
value there stays as it is, and what is absent stays absent. -/
def LeavesAgreed (old new target : Json) : Prop :=
  ∀ path left right, old.at? path = some left → new.at? path = some right →
    left.same right = true → (target.applyPatch (old.diff new)).at? path = target.at? path

theorem isObject_of_at? {value found : Json} {key : String} {path : List String}
    (h : value.at? (key :: path) = some found) : value.isObject = true := by
  cases hobject : value.isObject with
  | true => rfl
  | false =>
    rw [at?_of_not_isObject hobject] at h
    contradiction

/-! ## Equal values -/

/-- Objects with an empty patch between them are equal. -/
theorem same_of_diff_eq_nil (hold : old.WellFormed) (hnew : new.WellFormed)
    (holdObject : old.isObject = true) (hnewObject : new.isObject = true)
    (h : old.diff new = .obj []) : old.same new = true := by
  induction new using object_induction generalizing old with
  | other new hother =>
    rw [hother] at hnewObject
    contradiction
  | obj new ih =>
    refine same_of_get? hold hnew holdObject rfl fun key => ?_
    have hkey := get?_diff hold.ascending_fields hnew.ascending key
    rw [h] at hkey
    change none = _ at hkey
    change SameAt (old.get? key) (Entries.get? new key)
    cases hmember : Entries.get? new key with
    | none =>
      -- A key that only the old document has would be removed.
      rw [hmember] at hkey
      rw [Option.map_eq_none_iff.mp hkey.symm]
      exact .none
    | some member =>
      rw [hmember] at hkey
      obtain ⟨found, hfound, hsame | ⟨hobject, hobject', hempty⟩⟩ := change?_eq_none hkey.symm
      · exact hfound ▸ .some hsame
      · have hmem := (Entries.get?_eq_some_iff hnew.ascending).mp hmember
        exact hfound ▸ .some (ih (key, member) hmem (hold.get? hfound) (hnew.member hmember)
          hobject hobject' hempty)

/-! ## Paths -/

/-- Below its root a patch leaves any target alone where the documents agree. -/
theorem at?_applyPatch_diff (htarget : target.WellFormed) (hold : old.WellFormed)
    (hnew : new.WellFormed) {key : String} {path : List String} {left right : Json}
    (hleft : old.at? (key :: path) = some left) (hright : new.at? (key :: path) = some right)
    (hsame : left.same right = true) :
    (target.applyPatch (old.diff new)).at? (key :: path) = target.at? (key :: path) := by
  induction path generalizing key old new target with
  | nil =>
    have hobject := isObject_of_at? hright
    rw [eq_obj_of_isObject hobject] at hright hnew ⊢
    obtain ⟨before, hbefore, hat⟩ := Option.bind_eq_some_iff.mp hleft
    obtain ⟨after, hafter, hat'⟩ := Option.bind_eq_some_iff.mp hright
    obtain rfl := Option.some.inj hat
    obtain rfl := Option.some.inj hat'
    rw [at?, at?, get?_applyPatch_diff htarget hold hnew, hbefore]
    change Entries.get? new.fields key = some after at hafter
    rw [hafter, merged, change?_of_same hsame]
  | cons next path ih =>
    have hobject := isObject_of_at? hright
    rw [eq_obj_of_isObject hobject] at hright hnew ⊢
    obtain ⟨before, hbefore, hat⟩ := Option.bind_eq_some_iff.mp hleft
    obtain ⟨after, hafter, hat'⟩ := Option.bind_eq_some_iff.mp hright
    rw [at?, at?, get?_applyPatch_diff htarget hold hnew, hbefore]
    change Entries.get? new.fields key = some after at hafter
    rw [hafter]
    have hne : after ≠ .null := by
      rintro rfl
      rw [at?_of_not_isObject rfl] at hat'
      contradiction
    rcases @merged_some (some before) after hne (target.get? key) with ⟨heq, _⟩ | heq
    · rw [heq]
    · -- The patch descends; a target without an object here counts as an empty one.
      rw [heq, Option.bind_some, Option.getD_some,
        ih (htarget.getD_get? key) (hold.get? hbefore) (hnew.member hafter) hat hat']
      cases target.get? key with
      | some found => rfl
      | none => exact at?_of_not_isObject rfl next path

/-- The patch from one object to another leaves every target object alone where the two hold equal
values, and it is empty exactly if the two are equal. -/
theorem diff_local (hold : old.WellFormed) (hnew : new.WellFormed)
    (holdObject : old.isObject = true) (hnewObject : new.isObject = true) :
    (∀ target : Json, target.WellFormed → target.isObject = true →
      LeavesAgreed old new target) ∧
      (old.diff new = .obj [] ↔ old.same new = true) := by
  refine ⟨fun target htarget hobject path left right hleft hright hsame => ?_,
    fun h => same_of_diff_eq_nil hold hnew holdObject hnewObject h,
    fun h => diff_of_same hold hnew hnewObject h⟩
  cases path with
  | nil =>
    obtain rfl := Option.some.inj hleft
    obtain rfl := Option.some.inj hright
    rw [diff_of_same hold hnew hnewObject hsame, applyPatch_nil hobject]
  | cons key path => exact at?_applyPatch_diff htarget hold hnew hleft hright hsame

/-- A document with equal members next to one that differs. -/
def scaled : Json :=
  ofFields [("spec", ofFields [("paused", .bool false), ("replicas", .ofNat 2)]),
    ("status", ofFields [("phase", .null)])]

/-- The document with more replicas. -/
def rescaled : Json :=
  ofFields [("spec", ofFields [("paused", .bool false), ("replicas", .ofNat 3)]),
    ("status", ofFields [("phase", .null)])]

/-- The patch makes an object of a scalar in a third document and adds nothing there but the
member that differs. -/
theorem diff_local_scaled :
    LeavesAgreed scaled rescaled (ofFields [("spec", .str "none"), ("status", .bool true)]) ∧
      (scaled.diff rescaled ≠ .obj []) := by
  have hold : scaled.WellFormed := by decide +kernel
  have hnew : rescaled.WellFormed := by decide +kernel
  have hlocal := diff_local hold hnew rfl rfl
  have hdiffers : ¬ scaled.same rescaled = true := by decide +kernel
  exact ⟨hlocal.1 _ (by decide +kernel) rfl, fun h => hdiffers (hlocal.2.mp h)⟩

end ClusterObjects.Json
