import ClusterObjects.Json.MergePatch

/-! # Well-formed documents

Induction over documents, and what well-formedness says through the view of the
members under their keys. Merge patches and differences lead from well-formed
documents to well-formed ones.
-/

namespace ClusterObjects.Json

/-! ## Induction -/

/-- Induction over documents: the items of an array and the members of an object
are settled before it. -/
@[elab_as_elim]
theorem induction {motive : Json → Prop} (null : motive .null) (bool : ∀ b, motive (.bool b))
    (num : ∀ n, motive (.num n)) (str : ∀ s, motive (.str s))
    (arr : ∀ items, (∀ item ∈ items, motive item) → motive (.arr items))
    (obj : ∀ fields, (∀ field ∈ fields, motive field.2) → motive (.obj fields))
    (value : Json) : motive value := by
  refine @Json.rec motive (fun items => ∀ item ∈ items, motive item)
    (fun fields => ∀ field ∈ fields, motive field.2) (fun field => motive field.2)
    null bool num str arr obj ?_ ?_ ?_ ?_ (fun _ _ h => h) value
  · intro item hitem
    contradiction
  · intro head rest hhead hrest item hitem
    rcases List.mem_cons.mp hitem with rfl | hitem
    · exact hhead
    · exact hrest item hitem
  · intro field hfield
    contradiction
  · intro head rest hhead hrest field hfield
    rcases List.mem_cons.mp hfield with rfl | hfield
    · exact hhead
    · exact hrest field hfield

/-- Induction over the members of objects only, for what does not look into arrays. -/
@[elab_as_elim]
theorem object_induction {motive : Json → Prop}
    (other : ∀ value : Json, value.isObject = false → motive value)
    (obj : ∀ fields, (∀ field ∈ fields, motive field.2) → motive (.obj fields))
    (value : Json) : motive value := by
  induction value using induction with
  | obj fields ih => exact obj fields ih
  | _ => exact other _ rfl

theorem str_ne_null {text : String} : Json.str text ≠ .null := fun h => Json.noConfusion h

theorem eq_obj_of_isObject {value : Json} (h : value.isObject = true) :
    value = .obj value.fields := by
  cases value with
  | obj fields => rfl
  | _ => contradiction

theorem fields_of_not_isObject {value : Json} (h : value.isObject = false) :
    value.fields = [] := by
  cases value with
  | obj fields => contradiction
  | _ => rfl

theorem get?_of_not_isObject {value : Json} (h : value.isObject = false) (key : String) :
    value.get? key = none := by
  rw [Json.get?, fields_of_not_isObject h]
  rfl

/-! ## Well-formedness through the members -/

theorem wellFormedItems_iff {items : List Json} :
    WellFormedItems items ↔ ∀ item ∈ items, item.WellFormed := by
  induction items with
  | nil => simp [WellFormedItems]
  | cons item rest ih => simp [WellFormedItems, ih]

theorem wellFormedFields_iff {fields : List (String × Json)} :
    WellFormedFields fields ↔ ∀ field ∈ fields, field.2.WellFormed := by
  induction fields with
  | nil => simp [WellFormedFields]
  | cons field rest ih =>
    obtain ⟨key, value⟩ := field
    rw [WellFormedFields, ih, List.forall_mem_cons]
    rfl

/-- An object is well formed if its keys ascend and every member is well formed. -/
theorem wellFormed_obj_iff {fields : Fields} :
    (obj fields).WellFormed ↔
      fields.Ascending ∧ ∀ key value, fields.get? key = some value → value.WellFormed := by
  rw [WellFormed, wellFormedFields_iff]
  refine and_congr_right fun hascending => ?_
  constructor
  · intro h key value hvalue
    exact h (key, value) ((Entries.get?_eq_some_iff hascending).mp hvalue)
  · intro h field hfield
    exact h field.1 field.2 ((Entries.get?_eq_some_iff hascending).mpr hfield)

instance {β : Type} (entries : Entries String β) : Decidable entries.Ascending :=
  inferInstanceAs (Decidable (List.Pairwise _ _))

mutual
/-- Well-formedness can be checked. -/
def decideWellFormed : (value : Json) → Decidable value.WellFormed
  | .arr items => decideWellFormedItems items
  | .obj fields => @instDecidableAnd _ _ inferInstance (decideWellFormedFields fields)
  | .null => isTrue trivial
  | .bool _ => isTrue trivial
  | .num _ => isTrue trivial
  | .str _ => isTrue trivial
termination_by structural value => value

@[inherit_doc decideWellFormed]
def decideWellFormedItems : (items : List Json) → Decidable (WellFormedItems items)
  | [] => isTrue trivial
  | item :: items => @instDecidableAnd _ _ (decideWellFormed item) (decideWellFormedItems items)
termination_by structural items => items

@[inherit_doc decideWellFormed]
def decideWellFormedFields :
    (fields : List (String × Json)) → Decidable (WellFormedFields fields)
  | [] => isTrue trivial
  | field :: fields =>
    @instDecidableAnd _ _ (decideWellFormedField field) (decideWellFormedFields fields)
termination_by structural fields => fields

@[inherit_doc decideWellFormed]
def decideWellFormedField : (field : String × Json) → Decidable (WellFormedField field)
  | (_, value) => decideWellFormed value
termination_by structural field => field
end

instance : DecidablePred WellFormed := decideWellFormed

namespace WellFormed

variable {fields : Fields} {value : Json} {key : String}

theorem ascending (h : (obj fields).WellFormed) : fields.Ascending := (wellFormed_obj_iff.mp h).1

theorem member (h : (obj fields).WellFormed) (hvalue : fields.get? key = some value) :
    value.WellFormed :=
  (wellFormed_obj_iff.mp h).2 key value hvalue

theorem ascending_fields (h : value.WellFormed) : value.fields.Ascending := by
  cases value with
  | obj fields => exact h.ascending
  | _ => exact List.Pairwise.nil

theorem getD {found : Option Json} (h : ∀ value ∈ found, value.WellFormed) :
    (found.getD .null).WellFormed := by
  cases found with
  | none => trivial
  | some value => exact h value rfl

theorem get? {found : Json} (h : value.WellFormed) (hfound : value.get? key = some found) :
    found.WellFormed := by
  cases value with
  | obj fields => exact h.member hfound
  | _ => contradiction

theorem getD_get? (h : value.WellFormed) (key : String) :
    ((value.get? key).getD .null).WellFormed :=
  getD fun _ hfound => h.get? hfound

theorem str (s : String) : (Json.str s).WellFormed := trivial

theorem nil : (obj []).WellFormed :=
  wellFormed_obj_iff.mpr ⟨List.Pairwise.nil, fun _ _ h => by contradiction⟩

theorem insert (h : (obj fields).WellFormed) (hvalue : value.WellFormed) :
    (obj (fields.insert key value)).WellFormed := by
  refine wellFormed_obj_iff.mpr ⟨h.ascending.insert key value, ?_⟩
  intro other found hfound
  rw [Entries.get?_insert] at hfound
  split at hfound
  · exact Option.some.inj hfound ▸ hvalue
  · exact h.member hfound

theorem erase (h : (obj fields).WellFormed) (key : String) :
    (obj (fields.erase key)).WellFormed := by
  refine wellFormed_obj_iff.mpr ⟨h.ascending.erase key, ?_⟩
  intro other found hfound
  rw [Entries.get?_erase h.ascending] at hfound
  split at hfound
  · contradiction
  · exact h.member hfound

end WellFormed

/-- Well-formed objects with the same members are the same. -/
theorem eq_of_get? {left right : Json} (hleft : left.WellFormed) (hright : right.WellFormed)
    (hleftObject : left.isObject = true) (hrightObject : right.isObject = true)
    (h : ∀ key, left.get? key = right.get? key) : left = right := by
  rw [eq_obj_of_isObject hleftObject, eq_obj_of_isObject hrightObject]
  exact congrArg obj (hleft.ascending_fields.ext hright.ascending_fields h)

/-! ## Merge patches -/

theorem applyPatch_of_not_isObject {patch : Json} (h : patch.isObject = false) (target : Json) :
    target.applyPatch patch = patch := by
  cases patch with
  | obj fields => contradiction
  | _ => rfl

theorem applyPatch_nil {target : Json} (h : target.isObject = true) :
    target.applyPatch (.obj []) = target := by
  cases target with
  | obj fields => rfl
  | _ => contradiction

theorem diff_of_not_isObject {new : Json} (h : new.isObject = false) (old : Json) :
    old.diff new = new := by
  cases new with
  | obj fields => contradiction
  | _ => rfl

/-- What an object patch leaves under a key, for documents in normal form. -/
theorem get?_applyPatch {target : Json} {patch : Fields} (htarget : target.WellFormed)
    (hpatch : (obj patch).WellFormed) (key : String) :
    (target.applyPatch (.obj patch)).get? key =
      match patch.get? key with
      | none => target.get? key
      | some member => patched (target.get? key) member :=
  get?_applyFields htarget.ascending_fields hpatch.ascending key

/-- A well-formed patch of a well-formed document gives a well-formed document. -/
theorem WellFormed.applyPatch {target patch : Json} (htarget : target.WellFormed)
    (hpatch : patch.WellFormed) : (target.applyPatch patch).WellFormed := by
  induction patch using object_induction generalizing target with
  | other patch hother => rwa [applyPatch_of_not_isObject hother]
  | obj patch ih =>
    refine wellFormed_obj_iff.mpr ⟨ascending_applyFields htarget.ascending_fields patch, ?_⟩
    intro key value hvalue
    rw [get?_applyFields htarget.ascending_fields hpatch.ascending] at hvalue
    cases hmember : Entries.get? patch key with
    | none => exact htarget.get? (by rw [hmember] at hvalue; exact hvalue)
    | some member =>
      rw [hmember] at hvalue
      have hfound := htarget.getD_get? key
      have hmem := (Entries.get?_eq_some_iff hpatch.ascending).mp hmember
      have hpatched := ih (key, member) hmem hfound (hpatch.member hmember)
      cases member with
      | null => simp [patched] at hvalue
      | _ => exact Option.some.inj hvalue ▸ hpatched

end ClusterObjects.Json
