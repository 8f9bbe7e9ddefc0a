import ClusterObjects.Proofs.Json.WellFormed
import ClusterObjects.Proofs.Time.Rfc3339
import ClusterObjects.Schema.Catalog

/-! # Records through their members

The members of a record are decoded one by one. In a lawful shape, where the keys
of every record ascend, what a record is decoded to is described by the view of
its members under their keys: each is decoded for itself, and a key that is no
member of the record is dropped.
-/

namespace ClusterObjects

theorem Entries.mem_of_get?_eq_some {κ β : Type} [DecidableEq κ] {entries : Entries κ β} {key : κ}
    {value : β} (h : entries.get? key = some value) : (key, value) ∈ entries := by
  induction entries with
  | nil => contradiction
  | cons head rest ih =>
    obtain ⟨k, v⟩ := head
    rw [get?_cons] at h
    split at h
    next hkey =>
      subst hkey
      rw [Option.some.inj h]
      exact List.mem_cons_self
    next => exact List.mem_cons_of_mem _ (ih h)

namespace Shape

/-! ## Lawful shapes -/

/-- Induction over shapes: the members of a record are settled before it. -/
@[elab_as_elim]
theorem induction {motive : Shape → Prop} (text : motive .text) (bool : motive .bool)
    (int32 : motive .int32) (int64 : motive .int64) (time : motive .time)
    (base64 : motive .base64) (mapOf : ∀ value, motive value → motive (.mapOf value))
    (listOf : ∀ item, motive item → motive (.listOf item))
    (record : ∀ name fields, (∀ field ∈ fields, motive field.2.2) → motive (.record name fields))
    (shape : Shape) : motive shape := by
  refine @Shape.rec motive (fun fields => ∀ field ∈ fields, motive field.2.2)
    (fun field => motive field.2.2) (fun member => motive member.2)
    text bool int32 int64 time base64 mapOf listOf record ?_ ?_ (fun _ _ h => h) (fun _ _ h => h)
    shape
  · intro field hfield
    contradiction
  · intro head rest hhead hrest field hfield
    rcases List.mem_cons.mp hfield with rfl | hfield
    · exact hhead
    · exact hrest field hfield

mutual
/-- Whether the keys of every record in the shape ascend. -/
def lawful : Shape → Bool
  | .mapOf value => lawful value
  | .listOf item => lawful item
  | .record _ fields => decide (Entries.Ascending fields) && lawfulFields fields
  | _ => true
termination_by structural shape => shape

/-- Whether the shapes of all members are lawful. -/
def lawfulFields : List (String × Bool × Shape) → Bool
  | [] => true
  | field :: fields => lawfulField field && lawfulFields fields
termination_by structural fields => fields

/-- Whether the shape of the member is lawful. -/
def lawfulField : String × Bool × Shape → Bool
  | (_, member) => lawfulMember member
termination_by structural field => field

/-- Whether the shape of the member is lawful. -/
def lawfulMember : Bool × Shape → Bool
  | (_, shape) => lawful shape
termination_by structural member => member
end

theorem lawfulFields_iff {fields : List Member} :
    lawfulFields fields = true ↔ ∀ field ∈ fields, field.2.2.lawful = true := by
  induction fields with
  | nil => simp [lawfulFields]
  | cons field rest ih =>
    obtain ⟨key, required, shape⟩ := field
    rw [lawfulFields, Bool.and_eq_true, ih, List.forall_mem_cons]
    rfl

theorem lawful_record_iff {name : String} {fields : List Member} :
    (record name fields).lawful = true ↔
      Entries.Ascending fields ∧ ∀ field ∈ fields, field.2.2.lawful = true := by
  rw [lawful, Bool.and_eq_true, decide_eq_true_eq, lawfulFields_iff]

/-! ## Members -/

variable {shape : Shape} {required : Bool} {value canonical : Json}

theorem decodeMember_of_ne_null (h : value ≠ .null) :
    decodeMember (required, shape) (some value) = (shape.decode value).map some := by
  cases value with
  | null => contradiction
  | _ => rfl

/-- Every shape reads its empty value from a well-formed one. -/
theorem exists_decode_empty (shape : Shape) :
    ∃ value : Json, value.WellFormed ∧ value ≠ .null ∧ shape.decode value = .ok shape.empty := by
  cases shape with
  | text => exact ⟨.str "", trivial, nofun, rfl⟩
  | bool => exact ⟨.bool false, trivial, nofun, rfl⟩
  | int32 => exact ⟨.ofInt 0, trivial, nofun, rfl⟩
  | int64 => exact ⟨.ofInt 0, trivial, nofun, rfl⟩
  | time =>
    have hvalid : Instant.Valid ⟨⟨1970, 1, 1⟩, 0, 0, 0, 0⟩ :=
      ⟨by decide, by decide, by decide, by decide, by decide⟩
    have hwrite : Rfc3339.write ⟨⟨1970, 1, 1⟩, 0, 0, 0, 0⟩ = "1970-01-01T00:00:00Z" := by
      decide +kernel
    refine ⟨.str "1970-01-01T00:00:00Z", trivial, nofun, ?_⟩
    simp only [decode, decodeTime, ← hwrite, Rfc3339.read_write hvalid]
    exact congrArg (fun text => Except.ok (Json.str text)) hwrite
  | base64 => exact ⟨.str "", trivial, nofun, rfl⟩
  | mapOf value => exact ⟨.obj [], Json.WellFormed.nil, nofun, rfl⟩
  | listOf item => exact ⟨.arr [], trivial, nofun, rfl⟩
  | record name fields =>
    refine ⟨.obj [], Json.WellFormed.nil, nofun, ?_⟩
    have hfields : decodeFields fields [] = .ok (emptyFields fields) := by
      induction fields with
      | nil => rfl
      | cons field rest ih =>
        obtain ⟨key, required, shape⟩ := field
        rw [decodeFields, ih]
        cases required <;> rfl
    rw [decode, hfields]
    rfl

/-- A member that is present after decoding was read from some value, from a well-formed
one if what was found is well formed. -/
theorem exists_decode_of_decodeMember {found : Option Json}
    (h : decodeMember (required, shape) found = .ok (some canonical)) :
    ∃ value : Json, ((∀ member ∈ found, member.WellFormed) → value.WellFormed) ∧
      shape.decode value = .ok canonical := by
  have habsent : Except.ok (if required then some shape.empty else none) =
      Except.ok (some canonical) (ε := DecodeError) → shape.empty = canonical := by
    intro heq
    cases required with
    | true => exact Option.some.inj (Except.ok.inj heq)
    | false => exact absurd (Except.ok.inj heq) nofun
  obtain ⟨seed, hseed, _, hempty⟩ := exists_decode_empty shape
  cases found with
  | none => exact ⟨seed, fun _ => hseed, by rw [hempty, habsent h]⟩
  | some member =>
    by_cases hnull : member = .null
    · subst hnull
      exact ⟨seed, fun _ => hseed, by rw [hempty, habsent h]⟩
    · rw [decodeMember_of_ne_null hnull] at h
      refine ⟨member, fun hwhole => hwhole member rfl, ?_⟩
      cases hdecode : shape.decode member with
      | error e => rw [hdecode] at h; contradiction
      | ok result =>
        rw [hdecode] at h
        rw [Option.some.inj (Except.ok.inj h)]

/-! ## Records through their members -/

variable {fields : List Member} {members result : Json.Fields} {key : String}

theorem decodeFields_cons_eq_ok {member : Bool × Shape}
    (h : decodeFields ((key, member) :: fields) members = .ok result) :
    ∃ found rest, decodeMember member (Entries.get? members key) = .ok found ∧
      decodeFields fields members = .ok rest ∧
      result = (found.map fun value => (key, value)).toList ++ rest := by
  rw [decodeFields, decodeField] at h
  cases hfound : decodeMember member (Entries.get? members key) with
  | error e => rw [hfound] at h; contradiction
  | ok found =>
    rw [hfound] at h
    cases hrest : decodeFields fields members with
    | error e => rw [hrest] at h; contradiction
    | ok rest =>
      rw [hrest] at h
      exact ⟨found, rest, rfl, rfl, (Except.ok.inj h).symm⟩

theorem fst_mem_of_mem_decodeFields (h : decodeFields fields members = .ok result)
    {entry : String × Json} (hentry : entry ∈ result) : ∃ field ∈ fields, field.1 = entry.1 := by
  induction fields generalizing result with
  | nil =>
    obtain rfl := Except.ok.inj h
    contradiction
  | cons field fields ih =>
    obtain ⟨key, member⟩ := field
    obtain ⟨found, rest, _, hrest, rfl⟩ := decodeFields_cons_eq_ok h
    rcases List.mem_append.mp hentry with hentry | hentry
    · refine ⟨(key, member), List.mem_cons_self, ?_⟩
      cases found with
      | none => contradiction
      | some value => rw [List.mem_singleton.mp hentry]
    · obtain ⟨field, hfield, heq⟩ := ih hrest hentry
      exact ⟨field, List.mem_cons_of_mem _ hfield, heq⟩

theorem ascending_of_decodeFields (hfields : Entries.Ascending fields)
    (h : decodeFields fields members = .ok result) : result.Ascending := by
  induction fields generalizing result with
  | nil =>
    obtain rfl := Except.ok.inj h
    exact List.Pairwise.nil
  | cons field fields ih =>
    obtain ⟨key, member⟩ := field
    obtain ⟨hbelow, hfields⟩ := List.pairwise_cons.mp hfields
    obtain ⟨found, rest, _, hrest, rfl⟩ := decodeFields_cons_eq_ok h
    cases found with
    | none => exact ih hfields hrest
    | some value =>
      refine List.pairwise_cons.mpr ⟨?_, ih hfields hrest⟩
      intro entry hentry
      obtain ⟨field, hfield, heq⟩ := fst_mem_of_mem_decodeFields hrest hentry
      exact heq ▸ hbelow field hfield

/-- A key that is no member of the record is dropped. -/
theorem get?_eq_none_of_decodeFields (h : decodeFields fields members = .ok result)
    (hkey : Entries.get? fields key = none) : result.get? key = none := by
  cases hresult : result.get? key with
  | none => rfl
  | some value =>
    obtain ⟨field, hfield, heq⟩ :=
      fst_mem_of_mem_decodeFields h (Entries.mem_of_get?_eq_some hresult)
    exact absurd (heq ▸ hkey) (Entries.get?_ne_none_of_mem hfield)

/-- Each member of the record is decoded for itself. -/
theorem decodeMember_of_decodeFields (hfields : Entries.Ascending fields)
    (h : decodeFields fields members = .ok result) {member : Bool × Shape}
    (hkey : Entries.get? fields key = some member) :
    decodeMember member (members.get? key) = .ok (result.get? key) := by
  induction fields generalizing result with
  | nil => contradiction
  | cons field fields ih =>
    obtain ⟨k, first⟩ := field
    obtain ⟨hbelow, hfields⟩ := List.pairwise_cons.mp hfields
    obtain ⟨found, rest, hfound, hrest, rfl⟩ := decodeFields_cons_eq_ok h
    have hnone : Entries.get? rest k = none :=
      get?_eq_none_of_decodeFields hrest (Entries.get?_eq_none_of_lt hbelow)
    rw [Entries.get?_cons] at hkey
    split at hkey
    next heq =>
      subst heq
      obtain rfl := Option.some.inj hkey
      rw [hfound]
      cases found with
      | none => exact congrArg Except.ok hnone.symm
      | some value => exact congrArg Except.ok (if_pos rfl).symm
    next hne =>
      rw [ih hfields hrest hkey]
      cases found with
      | none => rfl
      | some value => exact congrArg Except.ok (if_neg hne).symm

/-- Decoding a record looks at its own members only. -/
theorem decodeFields_congr {others : Json.Fields}
    (h : ∀ field ∈ fields, Entries.get? members field.1 = Entries.get? others field.1) :
    decodeFields fields members = decodeFields fields others := by
  induction fields with
  | nil => rfl
  | cons field fields ih =>
    obtain ⟨hfield, hrest⟩ := List.forall_mem_cons.mp h
    rw [decodeFields, decodeFields, decodeField, decodeField, hfield, ih hrest]

/-- A record is decoded if all its members are. -/
theorem decodeFields_ok (h : ∀ field ∈ fields,
      ∃ found, decodeMember field.2 (Entries.get? members field.1) = .ok found) :
    ∃ result, decodeFields fields members = .ok result := by
  induction fields with
  | nil => exact ⟨[], rfl⟩
  | cons field fields ih =>
    obtain ⟨found, hfound⟩ := h field List.mem_cons_self
    obtain ⟨rest, hrest⟩ := ih fun other hother => h other (List.mem_cons_of_mem _ hother)
    refine ⟨(found.map fun value => (field.1, value)).toList ++ rest, ?_⟩
    rw [decodeFields, decodeField, hfound, hrest]

/-- What a record is decoded to is settled by its members. -/
theorem decodeFields_eq_ok_of_members (hfields : Entries.Ascending fields)
    (hresult : result.Ascending)
    (hmembers : ∀ key member, Entries.get? fields key = some member →
      decodeMember member (members.get? key) = .ok (result.get? key))
    (hothers : ∀ key, Entries.get? fields key = none → result.get? key = none) :
    decodeFields fields members = .ok result := by
  have hok : ∃ other, decodeFields fields members = .ok other :=
    decodeFields_ok fun field hfield =>
      ⟨_, hmembers field.1 field.2 ((Entries.get?_eq_some_iff hfields).mpr hfield)⟩
  obtain ⟨other, hother⟩ := hok
  rw [hother]
  refine congrArg Except.ok
    (Entries.Ascending.ext (ascending_of_decodeFields hfields hother) hresult ?_)
  intro key
  cases hkey : Entries.get? fields key with
  | none => rw [get?_eq_none_of_decodeFields hother hkey, hothers key hkey]
  | some member =>
    have hdecoded := decodeMember_of_decodeFields hfields hother hkey
    rw [hmembers key member hkey] at hdecoded
    exact (Except.ok.inj hdecoded).symm

end Shape

end ClusterObjects
