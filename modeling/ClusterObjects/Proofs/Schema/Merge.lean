import ClusterObjects.Proofs.Schema.Canonical

/-! # Merging typed values

A patch that leads to a canonical value of a shape keeps every value of that shape
in it: whatever document the patch starts from, the value merged fits the shape
again. This is what lets a store merge a patch into a value that someone else has
written in the meantime.
-/

namespace ClusterObjects.Shape

/-- The value can be decoded by the shape. -/
def Fits (shape : Shape) (value : Json) : Prop := ∃ canonical, shape.decode value = .ok canonical

/-- What is found under the key of a member can be decoded; nothing and null always can. -/
def MemberFits (shape : Shape) (found : Option Json) : Prop :=
  found.getD .null = .null ∨ shape.Fits (found.getD .null)

variable {shape : Shape} {required : Bool}

theorem memberFits_iff {found : Option Json} :
    shape.MemberFits found ↔ ∃ result, decodeMember (required, shape) found = .ok result := by
  unfold MemberFits
  cases found with
  | none => exact iff_of_true (Or.inl rfl) ⟨_, rfl⟩
  | some value =>
    rw [Option.getD_some]
    by_cases hnull : value = .null
    · subst hnull
      exact iff_of_true (Or.inl rfl) ⟨_, rfl⟩
    · rw [or_iff_right hnull, decodeMember_of_ne_null hnull]
      unfold Fits
      cases shape.decode value with
      | error e =>
        exact iff_of_false not_exists_error_eq_ok not_exists_error_eq_ok
      | ok canonical => exact iff_of_true ⟨canonical, rfl⟩ ⟨some canonical, rfl⟩

theorem Fits.memberFits {value : Json} (h : shape.Fits value) : shape.MemberFits (some value) :=
  Or.inr h

/-! ## Maps and records -/

theorem fits_mapOf_iff {fields : Json.Fields} (hfields : fields.Ascending) :
    (mapOf shape).Fits (.obj fields) ↔
      ∀ key value, fields.get? key = some value → shape.Fits value := by
  have hmem : (∀ key value, fields.get? key = some value → shape.Fits value) ↔
      ∀ field ∈ fields, shape.Fits field.2 :=
    ⟨fun h field hfield => h field.1 field.2 ((Entries.get?_eq_some_iff hfields).mpr hfield),
      fun h key value hvalue => h (key, value) ((Entries.get?_eq_some_iff hfields).mp hvalue)⟩
  rw [hmem]
  clear hmem hfields
  constructor
  · rintro ⟨canonical, h⟩
    obtain ⟨_, result, heq, rfl, hresult⟩ := decode_mapOf_eq_ok h
    obtain rfl := Json.obj.inj heq
    clear h heq
    induction fields generalizing result with
    | nil => intro field hfield; contradiction
    | cons field fields ih =>
      obtain ⟨key, value⟩ := field
      obtain ⟨first, rest, hfirst, hrest, rfl⟩ := decodeValues_cons_eq_ok hresult
      exact List.forall_mem_cons.mpr ⟨⟨first, hfirst⟩, ih rest hrest⟩
  · intro h
    have hall : ∃ result, decodeValues (fun member => shape.decode member) fields = .ok result := by
      induction fields with
      | nil => exact ⟨[], rfl⟩
      | cons field fields ih =>
        obtain ⟨key, value⟩ := field
        obtain ⟨⟨first, hfirst⟩, hfields⟩ := List.forall_mem_cons.mp h
        obtain ⟨rest, hrest⟩ := ih hfields
        refine ⟨(key, first) :: rest, ?_⟩
        rw [decodeValues, hfirst, hrest]
    obtain ⟨result, hresult⟩ := hall
    refine ⟨.obj result, ?_⟩
    rw [decode, hresult]
    rfl

theorem decodeFields_ok_iff {fields : List Member} (hfields : Entries.Ascending fields)
    {members : Json.Fields} :
    (∃ result, decodeFields fields members = .ok result) ↔
      ∀ key required shape, Entries.get? fields key = some (required, shape) →
        shape.MemberFits (members.get? key) := by
  constructor
  · rintro ⟨result, hresult⟩ key required shape hkey
    exact memberFits_iff.mpr ⟨_, decodeMember_of_decodeFields hfields hresult hkey⟩
  · intro h
    refine decodeFields_ok fun field hfield => ?_
    obtain ⟨key, required, shape⟩ := field
    exact memberFits_iff.mp (h key required shape ((Entries.get?_eq_some_iff hfields).mpr hfield))

theorem fits_record_iff {name : String} {fields : List Member}
    (hfields : Entries.Ascending fields) {members : Json.Fields} :
    (record name fields).Fits (.obj members) ↔
      ∀ key required shape, Entries.get? fields key = some (required, shape) →
        shape.MemberFits (members.get? key) := by
  rw [← decodeFields_ok_iff hfields]
  constructor
  · rintro ⟨canonical, h⟩
    obtain ⟨_, result, heq, rfl, hresult⟩ := decode_record_eq_ok h
    obtain rfl := Json.obj.inj heq
    exact ⟨result, hresult⟩
  · rintro ⟨result, hresult⟩
    refine ⟨.obj result, ?_⟩
    rw [decode, hresult]
    rfl

/-! ## Merging -/

/-- A value of the shape, or null, merged with the patch from any document to a canonical value of
the shape, is a value of the shape. -/
def KeepsMerged (shape : Shape) : Prop :=
  ∀ stored old new : Json, stored.WellFormed → old.WellFormed → new.WellFormed →
    stored = .null ∨ shape.Fits stored → shape.decode new = .ok new →
    shape.Fits (stored.applyPatch (old.diff new))

/-- A canonical value that is no object takes the place of what is stored. -/
theorem fits_applyPatch_diff_of_not_isObject {stored old new : Json}
    (hother : new.isObject = false) (hcanonical : shape.decode new = .ok new) :
    shape.Fits (stored.applyPatch (old.diff new)) := by
  rw [Json.diff_of_not_isObject hother, Json.applyPatch_of_not_isObject hother]
  exact ⟨new, hcanonical⟩

section

variable {stored old new : Option Json}

/-- What a merged object has under a key is nothing, what was stored there, or a value of the
shape of the member. -/
theorem merged_cases (hstored : (stored.getD .null).WellFormed) (hold : (old.getD .null).WellFormed)
    (hnew : ∀ value ∈ new, value.WellFormed) (hfits : shape.MemberFits stored)
    (hcanonical : ∀ value ∈ new,
      shape.lawful = true ∧ shape.KeepsMerged ∧ shape.decode value = .ok value) :
    Json.merged stored old new = none ∨ Json.merged stored old new = stored ∨
      ∃ value, Json.merged stored old new = some value ∧ shape.Fits value := by
  have hnull : ∀ value ∈ new, value ≠ .null := fun value hvalue =>
    (nullFree_of_decode (hcanonical value hvalue).1 (hcanonical value hvalue).2.2).1
  rcases Json.merged_cases stored old hnull with ⟨_, heq⟩ | heq | ⟨value, hvalue, heq⟩
  · exact Or.inl heq
  · exact Or.inr (Or.inl heq)
  · obtain ⟨_, hkeeps, hself⟩ := hcanonical value hvalue
    exact Or.inr (Or.inr ⟨_, heq, hkeeps _ _ _ hstored hold (hnew value hvalue) hfits hself⟩)

theorem memberFits_merged (hstored : (stored.getD .null).WellFormed)
    (hold : (old.getD .null).WellFormed) (hnew : ∀ value ∈ new, value.WellFormed)
    (hfits : shape.MemberFits stored)
    (hcanonical : ∀ value ∈ new,
      shape.lawful = true ∧ shape.KeepsMerged ∧ shape.decode value = .ok value) :
    shape.MemberFits (Json.merged stored old new) := by
  rcases merged_cases hstored hold hnew hfits hcanonical with hnone | hsame | ⟨value, heq, hvalue⟩
  · rw [hnone]
    exact Or.inl rfl
  · rwa [hsame]
  · rw [heq]
    exact hvalue.memberFits

end

theorem KeepsMerged.mapOf (h : shape.KeepsMerged) (hlawful : shape.lawful = true) :
    (mapOf shape).KeepsMerged := by
  intro stored old new hstored hold hnew hfits hcanonical
  obtain ⟨fields, result, rfl, heq, hresult⟩ := decode_mapOf_eq_ok hcanonical
  obtain rfl := Json.obj.inj heq
  have hmember : ∀ key value, stored.get? key = some value → shape.Fits value := by
    rcases hfits with rfl | ⟨canonical, hdecode⟩
    · exact fun _ _ => nofun
    · obtain ⟨members, _, rfl, _, _⟩ := decode_mapOf_eq_ok hdecode
      exact (fits_mapOf_iff hstored.ascending).mp ⟨canonical, hdecode⟩
  have hself : ∀ key value, Entries.get? fields key = some value →
      shape.decode value = .ok value := by
    intro key value hvalue
    exact decode_of_mem_decodeValues hresult ((Entries.get?_eq_some_iff hnew.ascending).mp hvalue)
  rw [Json.applyPatch_diff_eq_obj,
    fits_mapOf_iff (hstored.applyPatch (hold.diff hnew)).ascending_fields]
  intro key value hvalue
  change (stored.applyPatch (old.diff (.obj fields))).get? key = some value at hvalue
  rw [Json.get?_applyPatch_diff hstored hold hnew] at hvalue
  have hfound : shape.MemberFits (stored.get? key) := by
    cases hfound : stored.get? key with
    | none => exact Or.inl rfl
    | some found => exact Or.inr (hmember key found hfound)
  rcases merged_cases (hstored.getD_get? key) (hold.getD_get? key) (fun _ => hnew.member) hfound
      fun value hvalue => ⟨hlawful, h, hself key value hvalue⟩
    with hnone | hsame | ⟨member, hmerged, hfits⟩
  · rw [hnone] at hvalue
    contradiction
  · exact hmember key value (hsame.symm.trans hvalue)
  · exact Option.some.inj (hmerged.symm.trans hvalue) ▸ hfits

theorem KeepsMerged.record {name : String} {shapes : List Member}
    (h : ∀ member ∈ shapes, member.2.2.KeepsMerged) (hlawful : (record name shapes).lawful = true) :
    (record name shapes).KeepsMerged := by
  intro stored old new hstored hold hnew hfits hcanonical
  obtain ⟨fields, result, rfl, heq, hresult⟩ := decode_record_eq_ok hcanonical
  obtain rfl := Json.obj.inj heq
  obtain ⟨hkeys, hshapes⟩ := lawful_record_iff.mp hlawful
  have hmember : ∀ key required shape, Entries.get? shapes key = some (required, shape) →
      shape.MemberFits (stored.get? key) := by
    rcases hfits with rfl | ⟨canonical, hdecode⟩
    · exact fun _ _ _ _ => Or.inl rfl
    · obtain ⟨members, _, rfl, _, _⟩ := decode_record_eq_ok hdecode
      exact (fits_record_iff hkeys).mp ⟨canonical, hdecode⟩
  rw [Json.applyPatch_diff_eq_obj, fits_record_iff hkeys]
  intro key required shape hkey
  have hmem := (Entries.get?_eq_some_iff hkeys).mp hkey
  have hself : ∀ value, Entries.get? fields key = some value →
      shape.decode value = .ok value := by
    intro value hvalue
    have hdecode := decodeMember_of_decodeFields hkeys hresult hkey
    rw [hvalue] at hdecode
    exact decode_of_decodeMember (hshapes _ hmem) hdecode
  change shape.MemberFits ((stored.applyPatch (old.diff (.obj fields))).get? key)
  rw [Json.get?_applyPatch_diff hstored hold hnew]
  exact memberFits_merged (hstored.getD_get? key) (hold.getD_get? key) (fun _ => hnew.member)
    (hmember key required shape hkey)
    fun value hvalue => ⟨hshapes _ hmem, h _ hmem, hself value hvalue⟩

/-- Every lawful shape keeps its values under a merge. -/
theorem keepsMerged {shape : Shape} (hlawful : shape.lawful = true) : shape.KeepsMerged := by
  induction shape using induction with
  | text | bool | int32 | int64 | time | base64 | listOf =>
    intro stored old new _ _ _ _ hcanonical
    refine fits_applyPatch_diff_of_not_isObject ?_ hcanonical
    cases new with
    | obj fields => exact absurd hcanonical nofun
    | _ => rfl
  | mapOf shape ih => exact (ih hlawful).mapOf hlawful
  | record name shapes ih =>
    obtain ⟨_, hshapes⟩ := lawful_record_iff.mp hlawful
    exact .record (fun member hmember => ih member hmember (hshapes member hmember)) hlawful

end ClusterObjects.Shape
