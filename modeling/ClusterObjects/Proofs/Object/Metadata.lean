import ClusterObjects.Object.Metadata
import ClusterObjects.Proofs.Schema.Merge

/-! # Well-formed metadata

Metadata is well formed if it is in canonical form. Stating a text of a member
keeps it so where the member takes texts, and decoding reads the texts of these
members as they stand.
-/

namespace ClusterObjects

namespace Schema

theorem lawful_metadata : metadata.lawful = true := by decide +kernel

/-- The members of the metadata. -/
def metadataMembers : List Shape.Member :=
  match metadata with
  | .record _ members => members
  | _ => []

theorem metadata_eq : metadata = .record "ObjectMeta" metadataMembers := rfl

theorem ascending_metadataMembers : Entries.Ascending metadataMembers := by decide +kernel

theorem decode_metadata_eq_ok {value canonical : Json}
    (h : metadata.decode value = .ok canonical) :
    ∃ members result, value = .obj members ∧ canonical = .obj result ∧
      Shape.decodeFields metadataMembers members = .ok result :=
  Shape.decode_record_eq_ok h

theorem decode_metadata_obj {members result : Json.Fields}
    (h : Shape.decodeFields metadataMembers members = .ok result) :
    metadata.decode (.obj members) = .ok (.obj result) := by
  rw [metadata_eq, Shape.decode, h]
  rfl

end Schema

namespace Shape

/-- Decoding a member that takes texts reads the text that is there, if any. -/
theorem text?_of_decodeMember {found result : Option Json}
    (h : decodeMember (false, text) found = .ok result) :
    result.bind Json.text? = found.bind Json.text? := by
  cases found with
  | none => rw [← Except.ok.inj h]; rfl
  | some value =>
    cases value with
    | null => rw [← Except.ok.inj h]; rfl
    | str s => rw [← Except.ok.inj h]
    | _ => contradiction

end Shape

namespace Metadata

/-- The members are in canonical form. -/
structure WellFormed (metadata : Metadata) : Prop where
  whole : metadata.toJson.WellFormed
  canonical : Schema.metadata.decode metadata.toJson = .ok metadata.toJson

variable {metadata : Metadata} {key : String}

theorem WellFormed.decodeFields (h : metadata.WellFormed) :
    Shape.decodeFields Schema.metadataMembers metadata.fields = .ok metadata.fields := by
  obtain ⟨members, result, hmembers, hresult, hdecode⟩ := Schema.decode_metadata_eq_ok h.canonical
  obtain rfl := Json.obj.inj hmembers
  obtain rfl := Json.obj.inj hresult
  exact hdecode

theorem get?_setText (metadata : Metadata) (key text other : String) :
    (metadata.setText key text).fields.get? other =
      if key = other then some (.str text) else metadata.fields.get? other :=
  Entries.get?_insert metadata.fields key other (.str text)

theorem textAt_setText (metadata : Metadata) (key text other : String) :
    (metadata.setText key text).textAt other =
      if key = other then text else metadata.textAt other := by
  unfold textAt
  rw [get?_setText]
  split <;> rfl

/-- Stating a text keeps metadata well formed where the shape of the member takes the text. -/
theorem WellFormed.setText (h : metadata.WellFormed) (key text : String) {required : Bool}
    {shape : Shape}
    (hkey : Entries.get? Schema.metadataMembers key = some (required, shape))
    (htext : shape.decode (.str text) = .ok (.str text)) :
    (metadata.setText key text).WellFormed := by
  have hwhole : (metadata.setText key text).toJson.WellFormed := h.whole.insert (.str text)
  refine ⟨hwhole, Schema.decode_metadata_obj ?_⟩
  refine Shape.decodeFields_eq_ok_of_members Schema.ascending_metadataMembers hwhole.ascending ?_ ?_
  · intro other member hother
    rw [get?_setText]
    split
    next heq =>
      subst heq
      rw [hkey] at hother
      rw [← Option.some.inj hother, Shape.decodeMember_of_ne_null Json.str_ne_null, htext]
      rfl
    next =>
      exact Shape.decodeMember_of_decodeFields Schema.ascending_metadataMembers h.decodeFields
        hother
  · intro other hother
    rw [get?_setText]
    split
    next heq =>
      subst heq
      rw [hkey] at hother
      contradiction
    next => exact Shape.get?_eq_none_of_decodeFields h.decodeFields hother

/-- The text of a member survives decoding. -/
theorem text?_of_decode {value canonical : Json}
    (hkey : Entries.get? Schema.metadataMembers key = some (false, .text))
    (h : Schema.metadata.decode value = .ok canonical) :
    (canonical.get? key).bind Json.text? = (value.get? key).bind Json.text? := by
  obtain ⟨members, result, rfl, rfl, hdecode⟩ := Schema.decode_metadata_eq_ok h
  exact Shape.text?_of_decodeMember
    (Shape.decodeMember_of_decodeFields Schema.ascending_metadataMembers hdecode hkey)

/-- A text member of well-formed metadata is a text. -/
theorem WellFormed.eq_str (h : metadata.WellFormed)
    (hkey : Entries.get? Schema.metadataMembers key = some (false, .text)) {value : Json}
    (hvalue : metadata.fields.get? key = some value) : ∃ text, value = .str text := by
  have hdecode := Shape.decodeMember_of_decodeFields Schema.ascending_metadataMembers
    h.decodeFields hkey
  rw [hvalue] at hdecode
  cases value with
  | str s => exact ⟨s, rfl⟩
  | null => exact absurd (Except.ok.inj hdecode) nofun
  | _ => contradiction

/-- Stating a text that is stated already changes nothing. -/
theorem WellFormed.setText_self (h : metadata.WellFormed)
    (hkey : Entries.get? Schema.metadataMembers key = some (false, .text)) {text : String}
    (htext : metadata.textAt key = text) (hne : text ≠ "") :
    metadata.setText key text = metadata := by
  cases hfound : metadata.fields.get? key with
  | none =>
    rw [textAt, hfound] at htext
    exact absurd htext.symm hne
  | some value =>
    obtain ⟨stated, rfl⟩ := h.eq_str hkey hfound
    rw [textAt, hfound] at htext
    obtain rfl : stated = text := htext
    have hfields := Entries.insert_eq_self h.whole.ascending hfound
    rw [Metadata.setText, hfields]

/-- The creation time of well-formed metadata is a timestamp in canonical form. -/
theorem WellFormed.decode_creation (h : metadata.WellFormed) {value : Json}
    (hvalue : metadata.fields.get? "creationTimestamp" = some value) :
    ∃ text, value = .str text ∧ Shape.time.decode (.str text) = .ok (.str text) := by
  have hdecode : Shape.decodeMember (false, .time) (metadata.fields.get? "creationTimestamp") =
      .ok (metadata.fields.get? "creationTimestamp") :=
    Shape.decodeMember_of_decodeFields Schema.ascending_metadataMembers h.decodeFields rfl
  rw [hvalue] at hdecode
  have hself := Shape.decode_of_decodeMember rfl hdecode
  obtain ⟨t, _, rfl⟩ := Shape.decodeTime_eq_ok hself
  exact ⟨_, rfl, hself⟩

end Metadata

end ClusterObjects
