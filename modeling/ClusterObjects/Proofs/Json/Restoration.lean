import ClusterObjects.Proofs.Json.Difference
import ClusterObjects.Proofs.Json.Equality

/-! # Restoring a document from a difference

A merge patch cannot set a member to null: where it holds null it removes. So
the patch from one document to another leads to the other only if the other has
no null that the first does not have at the same path. Merging never brings
such a null about, whatever the patch.
-/

namespace ClusterObjects.Json

/-! ## Paths of keys -/

/-- The value at a path of keys; below anything but an object there is none. -/
def at? (value : Json) : List String → Option Json
  | [] => some value
  | key :: path => (value.get? key).bind fun member => member.at? path

/-- Where the new document holds null below its root, the old one holds null too. -/
def NullsWithin (new old : Json) : Prop :=
  ∀ key path, new.at? (key :: path) = some .null → old.at? (key :: path) = some .null

/-- The document holds null nowhere below its root, arrays aside. -/
def NullFree (value : Json) : Prop :=
  ∀ key path, value.at? (key :: path) ≠ some .null

theorem at?_of_not_isObject {value : Json} (h : value.isObject = false) (key : String)
    (path : List String) : value.at? (key :: path) = none := by
  rw [at?, get?_of_not_isObject h]
  rfl

/-- Nothing counts as null: it holds no null below. -/
theorem NullsWithin.getD {new old value : Json} {key : String} (h : new.NullsWithin old)
    (hvalue : new.get? key = some value) : value.NullsWithin ((old.get? key).getD .null) := by
  intro next path hnull
  have hold := h key (next :: path) (by rw [at?, hvalue]; exact hnull)
  rw [at?] at hold
  cases hfound : old.get? key with
  | none => rw [hfound] at hold; contradiction
  | some found => rwa [hfound] at hold

theorem NullsWithin.get?_eq_null {new old : Json} {key : String} (h : new.NullsWithin old)
    (hnull : new.get? key = some .null) : old.get? key = some .null := by
  have hold := h key [] (by rw [at?, hnull]; rfl)
  rw [at?] at hold
  obtain ⟨found, hfound, hat⟩ := Option.bind_eq_some_iff.mp hold
  rwa [Option.some.inj hat] at hfound

/-! ## Restoration -/

/-- Under one key, restoration follows from restoration of the value there; what is absent
counts as null. -/
theorem sameAt_merged {old new : Option Json} (hnull : new = some .null → old = some .null)
    (hvalue : ∀ value, new = some value →
      ((old.getD .null).applyPatch ((old.getD .null).diff value)).same value = true) :
    SameAt (merged old old new) new := by
  cases new with
  | none => cases old <;> exact .none
  | some value =>
    by_cases hne : value = .null
    · rw [hnull (congrArg some hne), hne]
      exact .some rfl
    · have hrestored := hvalue value rfl
      rcases merged_some hne old with ⟨heq, hchange⟩ | heq
      · rw [heq]
        obtain ⟨found, rfl, hsame | ⟨hfound, hobject, hempty⟩⟩ := change?_eq_none hchange
        · exact .some hsame
        · -- An empty patch leaves the old value, and restoration says that it is the new one.
          rw [Option.getD_some, hempty, eq_obj_of_isObject hfound] at hrestored
          rw [eq_obj_of_isObject hfound]
          exact .some hrestored
      · rw [heq]
        exact .some hrestored

/-- The patch from an old document to a new one restores the new one from the old,
unless the new one holds a null where the old one does not. -/
theorem applyPatch_diff {old new : Json} (hold : old.WellFormed) (hnew : new.WellFormed)
    (hnulls : new.NullsWithin old) : (old.applyPatch (old.diff new)).same new = true := by
  induction new using object_induction generalizing old with
  | other new hother =>
    rw [diff_of_not_isObject hother, applyPatch_of_not_isObject hother]
    exact new.same_refl
  | obj new ih =>
    have hresult : (old.applyPatch (old.diff (.obj new))).isObject = true := by
      rw [applyPatch_diff_eq_obj]
      rfl
    refine same_of_get? (hold.applyPatch (hold.diff hnew)) hnew hresult rfl ?_
    intro key
    rw [get?_applyPatch_diff hold hold hnew]
    refine sameAt_merged (fun hnull => hnulls.get?_eq_null hnull) ?_
    -- A member is restored from the old one, or from null where there was none.
    intro value hvalue
    have hmem := (Entries.get?_eq_some_iff hnew.ascending).mp hvalue
    exact ih (key, value) hmem (hold.getD_get? key)
      (hnew.member hvalue) (hnulls.getD hvalue)

/-! ## Nulls of a merged document -/

theorem applyPatch_ne_null {target patch : Json} (h : patch ≠ .null) :
    target.applyPatch patch ≠ .null := by
  cases hobject : patch.isObject with
  | false => rwa [applyPatch_of_not_isObject hobject]
  | true =>
    rw [eq_obj_of_isObject hobject]
    simp [applyPatch]

/-- Merging an object brings no null about that the target does not have. -/
theorem nullsWithin_applyPatch {target patch : Json} (htarget : target.WellFormed)
    (hpatch : patch.WellFormed) (hobject : patch.isObject = true) :
    (target.applyPatch patch).NullsWithin target := by
  induction patch using object_induction generalizing target with
  | other patch hother => rw [hother] at hobject; contradiction
  | obj patch ih =>
    intro key path hnull
    rw [at?, get?_applyPatch htarget hpatch] at hnull
    rw [at?]
    cases hmember : Entries.get? patch key with
    | none => rwa [hmember] at hnull
    | some member =>
      simp only [hmember] at hnull
      by_cases hne : member = .null
      · rw [hne, patched] at hnull
        contradiction
      · rw [patched_of_ne_null hne, Option.bind_some] at hnull
        cases path with
        | nil => exact absurd (Option.some.inj hnull) (applyPatch_ne_null hne)
        | cons next path =>
          cases hother : member.isObject with
          | false =>
            rw [applyPatch_of_not_isObject hother, at?_of_not_isObject hother] at hnull
            contradiction
          | true =>
            have hmem := (Entries.get?_eq_some_iff hpatch.ascending).mp hmember
            cases hfound : target.get? key with
            | none =>
              -- A new object is merged into null, which holds no null below itself.
              rw [hfound] at hnull
              have hbelow := @ih (key, member) hmem .null trivial (hpatch.member hmember) hother
                next path hnull
              rw [at?_of_not_isObject rfl] at hbelow
              contradiction
            | some found =>
              rw [hfound] at hnull
              exact ih (key, member) hmem (htarget.get? hfound) (hpatch.member hmember) hother
                next path hnull

/-! ## When a difference restores -/

/-- The patch from an old document to a new one makes the new one of the old one. -/
def Restores (old new : Json) : Prop := (old.applyPatch (old.diff new)).same new = true

instance (old new : Json) : Decidable (Restores old new) :=
  inferInstanceAs (Decidable (_ = true))

theorem eq_null_of_same {value : Json} (h : value.same .null = true) : value = .null := by
  cases value with
  | null => rfl
  | _ => contradiction

/-- Equal documents hold equal values at every path. -/
theorem sameAt_at? {left right : Json} (h : left.same right = true) (path : List String) :
    SameAt (left.at? path) (right.at? path) := by
  induction path generalizing left right with
  | nil => exact .some h
  | cons key path ih =>
    have hmember := get?_of_same h key
    rw [at?, at?]
    generalize left.get? key = found at hmember ⊢
    generalize right.get? key = other at hmember ⊢
    cases hmember with
    | none => exact .none
    | some hvalue => exact ih hvalue

/-- Equal documents hold null at the same paths. -/
theorem at?_eq_null_of_same {left right : Json} (h : left.same right = true) {path : List String}
    (hnull : right.at? path = some .null) : left.at? path = some .null := by
  have hsame := sameAt_at? h path
  rw [hnull] at hsame
  cases hleft : left.at? path with
  | none =>
    rw [hleft] at hsame
    cases hsame
  | some value =>
    rw [hleft] at hsame
    cases hsame with
    | some hvalue => rw [eq_null_of_same hvalue]

theorem nullsWithin_of_not_isObject {new : Json} (h : new.isObject = false) (old : Json) :
    new.NullsWithin old := by
  intro key path hnull
  rw [at?_of_not_isObject h] at hnull
  contradiction

/-- A document that is restored holds null only where the old one does: it equals one that was
merged into the old one, and merging brings no null about. -/
theorem Restores.nullsWithin {old new : Json} (h : Restores old new) (hold : old.WellFormed)
    (hnew : new.WellFormed) : new.NullsWithin old := by
  cases hobject : new.isObject with
  | false => exact nullsWithin_of_not_isObject hobject old
  | true =>
    have hmerged : (old.applyPatch (old.diff new)).NullsWithin old :=
      nullsWithin_applyPatch hold (hold.diff hnew) (isObject_diff hobject)
    intro key path hnull
    exact hmerged key path (at?_eq_null_of_same h hnull)

/-- The patch from an old document to a new one restores the new one from the old exactly if the
new one holds null, arrays aside, only where the old one holds null too. So it does whenever the
new document is no object or holds no such null at all. -/
theorem restores_iff {old new : Json} (hold : old.WellFormed) (hnew : new.WellFormed) :
    (Restores old new ↔ new.NullsWithin old) ∧
      (new.isObject = false → Restores old new) ∧ (new.NullFree → Restores old new) := by
  refine ⟨⟨fun h => h.nullsWithin hold hnew, applyPatch_diff hold hnew⟩, fun hother => ?_,
    fun hfree => ?_⟩
  · exact applyPatch_diff hold hnew (nullsWithin_of_not_isObject hother old)
  · exact applyPatch_diff hold hnew fun key path hnull => absurd hnull (hfree key path)

/-- A document with a null next to members that change, are dropped and become objects. -/
def withNull : Json :=
  ofFields [("kept", ofFields [("none", .null), ("zero", .num (.double (.zero false)))]),
    ("dropped", .arr [.null]), ("scalar", .bool true)]

/-- A document that keeps the null, adds nulls inside an array, and negates a zero. -/
def withNullKept : Json :=
  ofFields [("kept", ofFields [("none", .null), ("zero", .num (.double (.zero true)))]),
    ("scalar", ofFields [("items", .arr [.null, ofFields [("none", .null)]])])]

/-- Neither a null that both documents hold nor those inside an array stand in the way of
restoration; a null below what is a scalar in the old document does. -/
theorem restores_withNullKept :
    (Restores withNull withNullKept ∧ withNullKept.NullsWithin withNull) ∧
      ¬ (ofFields [("scalar", ofFields [("none", .null)])]).NullsWithin withNull := by
  have hrestores : Restores withNull withNullKept := by decide +kernel
  have hlost : ¬ Restores withNull (ofFields [("scalar", ofFields [("none", .null)])]) := by
    decide +kernel
  have hold : withNull.WellFormed := by decide +kernel
  have hkept : withNullKept.WellFormed := by decide +kernel
  have hbelow : (ofFields [("scalar", ofFields [("none", .null)])]).WellFormed := by
    decide +kernel
  exact ⟨⟨hrestores, (restores_iff hold hkept).1.mp hrestores⟩,
    fun hnulls => hlost ((restores_iff hold hbelow).1.mpr hnulls)⟩

/-! ## Members that differ -/

/-- The patch leaves a key out under which the values are equal. -/
theorem change?_of_same {left right : Json} (h : left.same right = true) :
    change? (some left) right = none := by
  rw [change?, if_pos h]

/-- The patch between equal objects is empty. -/
theorem diff_of_same {old new : Json} (hold : old.WellFormed) (hnew : new.WellFormed)
    (hobject : new.isObject = true) (h : old.same new = true) : old.diff new = .obj [] := by
  apply eq_of_get? (hold.diff hnew) .nil (isObject_diff hobject) rfl
  intro key
  change (old.diff new).get? key = none
  rw [eq_obj_of_isObject hobject] at h hnew ⊢
  rw [get?_diff hold.ascending_fields hnew.ascending]
  have hmember := get?_of_same h key
  change SameAt (old.get? key) (Entries.get? new.fields key) at hmember
  generalize old.get? key = found at hmember ⊢
  generalize Entries.get? new.fields key = member at hmember ⊢
  cases hmember with
  | none => rfl
  | some hvalue => exact change?_of_same hvalue

/-- The patch from an object to itself is empty. -/
theorem diff_self {fields : Fields} (hfields : (obj fields).WellFormed) :
    (obj fields).diff (.obj fields) = .obj [] :=
  diff_of_same hfields hfields rfl (same_refl _)

/-- A patch between objects states the text of a member that differs. -/
theorem change?_of_text_ne {old new : Json} (hold : old.WellFormed) (hnew : new.WellFormed)
    {key before after : String} (hbefore : old.get? key = some (.str before))
    (hafter : new.get? key = some (.str after)) (hne : after ≠ before) :
    ∃ patch, change? (some old) new = some patch ∧ patch.get? key = some (.str after) := by
  have hdiff : (old.diff new).get? key = some (.str after) := by
    cases new with
    | obj fields =>
      rw [get?_diff hold.ascending_fields hnew.ascending]
      change Entries.get? fields key = _ at hafter
      rw [hafter, hbefore]
      have hdiffers : ¬ before = after := fun heq => hne heq.symm
      simp [change?, same, hdiffers, isObject]
    | _ => contradiction
  -- An empty patch would not state the text, so some patch is left.
  cases hchange : change? (some old) new with
  | some patch =>
    refine ⟨patch, rfl, ?_⟩
    rw [change?_eq_some hchange]
    exact hdiff
  | none =>
    obtain ⟨found, hfound, hcases⟩ := change?_eq_none hchange
    obtain rfl := Option.some.inj hfound
    rcases hcases with hsame | ⟨_, _, hempty⟩
    · have hequal := get?_of_same hsame key
      rw [hbefore, hafter] at hequal
      cases hequal with
      | some hequal => exact absurd (by simpa [same] using hequal) hne.symm
    · rw [hempty] at hdiff
      contradiction

/-- A patch between objects leaves out a text that both of them hold. -/
theorem get?_of_change?_of_text_eq {old new patch : Json} (hold : old.WellFormed)
    (hnew : new.WellFormed) {key text : String} (hbefore : old.get? key = some (.str text))
    (hafter : new.get? key = some (.str text)) (hchange : change? (some old) new = some patch) :
    patch.get? key = none := by
  rw [change?_eq_some hchange]
  cases new with
  | obj fields =>
    rw [Option.getD_some, get?_diff hold.ascending_fields hnew.ascending]
    change Entries.get? fields key = _ at hafter
    rw [hafter, hbefore]
    simp [change?, same]
  | _ => contradiction

end ClusterObjects.Json
