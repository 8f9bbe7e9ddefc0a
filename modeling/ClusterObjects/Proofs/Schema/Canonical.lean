import ClusterObjects.Proofs.Json.Restoration
import ClusterObjects.Proofs.Schema.Record

/-! # Canonical forms of typed values

Decoding by a lawful shape gives a value that decodes to itself. A decoded value
is made of texts, booleans, integers, arrays and objects, so it holds no null and
equals no value but itself.
-/

namespace ClusterObjects

namespace Json

/-- The document equals no other. -/
def Exact (value : Json) : Prop := ∀ other : Json, other.same value = true → other = value

theorem eq_of_sameAt {found expected : Option Json} (h : SameAt found expected)
    (hexact : ∀ value, expected = some value → value.Exact) : found = expected := by
  cases h with
  | none => rfl
  | some hsame => rw [hexact _ rfl _ hsame]

theorem exact_str (s : String) : (str s).Exact := by
  intro other h
  cases other <;> simp_all [same]

theorem exact_bool (b : Bool) : (bool b).Exact := by
  intro other h
  cases other <;> simp_all [same]

theorem exact_ofInt (n : Int) : (ofInt n).Exact := by
  intro other h
  cases other with
  | num m => cases m <;> simp_all [ofInt, same, Number.same]
  | _ => contradiction

theorem exact_arr {items : List Json} (h : ∀ item ∈ items, item.Exact) : (arr items).Exact := by
  intro other hsame
  cases other with
  | arr others =>
    refine congrArg arr ?_
    change sameItems others items = true at hsame
    induction items generalizing others with
    | nil =>
      cases others with
      | nil => rfl
      | cons => contradiction
    | cons item rest ih =>
      cases others with
      | nil => contradiction
      | cons first others =>
        rw [sameItems, Bool.and_eq_true] at hsame
        obtain ⟨hitem, hrest⟩ := List.forall_mem_cons.mp h
        rw [hitem first hsame.1, ih hrest others hsame.2]
  | _ => contradiction

theorem exact_obj {fields : Fields} (h : ∀ field ∈ fields, field.2.Exact) :
    (obj fields).Exact := by
  intro other hsame
  cases other with
  | obj others =>
    refine congrArg obj ?_
    change sameFields others fields = true at hsame
    induction fields generalizing others with
    | nil =>
      cases others with
      | nil => rfl
      | cons => contradiction
    | cons field rest ih =>
      cases others with
      | nil => contradiction
      | cons first others =>
        obtain ⟨key, value⟩ := field
        obtain ⟨k, v⟩ := first
        simp only [sameFields, sameField, Bool.and_eq_true, beq_iff_eq] at hsame
        obtain ⟨⟨rfl, hvalue⟩, hothers⟩ := hsame
        obtain ⟨hfield, hrest⟩ := List.forall_mem_cons.mp h
        rw [hfield v hvalue, ih hrest others hothers]
  | _ => contradiction

end Json

namespace Shape

/-! ## Maps and lists -/

variable {decodeOne : Json → Except DecodeError Json}

theorem decodeValues_cons_eq_ok {key : String} {value : Json} {fields result : Json.Fields}
    (h : decodeValues decodeOne ((key, value) :: fields) = .ok result) :
    ∃ first rest, decodeOne value = .ok first ∧ decodeValues decodeOne fields = .ok rest ∧
      result = (key, first) :: rest := by
  rw [decodeValues] at h
  cases hvalue : decodeOne value with
  | error e => rw [hvalue] at h; contradiction
  | ok first =>
    rw [hvalue] at h
    cases hfields : decodeValues decodeOne fields with
    | error e => rw [hfields] at h; contradiction
    | ok rest =>
      rw [hfields] at h
      exact ⟨first, rest, rfl, rfl, (Except.ok.inj h).symm⟩

theorem decodeItems_cons_eq_ok {item : Json} {items result : List Json}
    (h : decodeItems decodeOne (item :: items) = .ok result) :
    ∃ first rest, decodeOne item = .ok first ∧ decodeItems decodeOne items = .ok rest ∧
      result = first :: rest := by
  rw [decodeItems] at h
  cases hitem : decodeOne item with
  | error e => rw [hitem] at h; contradiction
  | ok first =>
    rw [hitem] at h
    cases hitems : decodeItems decodeOne items with
    | error e => rw [hitems] at h; contradiction
    | ok rest =>
      rw [hitems] at h
      exact ⟨first, rest, rfl, rfl, (Except.ok.inj h).symm⟩

/-- Every value of the decoded map was decoded under the same key. -/
theorem exists_of_mem_decodeValues {fields result : Json.Fields}
    (h : decodeValues decodeOne fields = .ok result) {entry : String × Json}
    (hentry : entry ∈ result) :
    ∃ value, (entry.1, value) ∈ fields ∧ decodeOne value = .ok entry.2 := by
  induction fields generalizing result with
  | nil =>
    obtain rfl := Except.ok.inj h
    contradiction
  | cons field fields ih =>
    obtain ⟨key, value⟩ := field
    obtain ⟨first, rest, hfirst, hrest, rfl⟩ := decodeValues_cons_eq_ok h
    rcases List.mem_cons.mp hentry with rfl | hentry
    · exact ⟨value, List.mem_cons_self, hfirst⟩
    · obtain ⟨other, hother, hdecode⟩ := ih hrest hentry
      exact ⟨other, List.mem_cons_of_mem _ hother, hdecode⟩

theorem exists_of_mem_decodeItems {items result : List Json}
    (h : decodeItems decodeOne items = .ok result) {item : Json} (hitem : item ∈ result) :
    ∃ value ∈ items, decodeOne value = .ok item := by
  induction items generalizing result with
  | nil =>
    obtain rfl := Except.ok.inj h
    contradiction
  | cons value items ih =>
    obtain ⟨first, rest, hfirst, hrest, rfl⟩ := decodeItems_cons_eq_ok h
    rcases List.mem_cons.mp hitem with rfl | hitem
    · exact ⟨value, List.mem_cons_self, hfirst⟩
    · obtain ⟨other, hother, hdecode⟩ := ih hrest hitem
      exact ⟨other, List.mem_cons_of_mem _ hother, hdecode⟩

theorem map_fst_decodeValues {fields result : Json.Fields}
    (h : decodeValues decodeOne fields = .ok result) :
    result.map (·.1) = fields.map (·.1) := by
  induction fields generalizing result with
  | nil => rw [← Except.ok.inj h]
  | cons field fields ih =>
    obtain ⟨key, value⟩ := field
    obtain ⟨first, rest, _, hrest, rfl⟩ := decodeValues_cons_eq_ok h
    rw [List.map_cons, List.map_cons, ih hrest]

theorem ascending_of_decodeValues {fields result : Json.Fields} (hfields : fields.Ascending)
    (h : decodeValues decodeOne fields = .ok result) : result.Ascending := by
  unfold Entries.Ascending at hfields ⊢
  rw [← List.pairwise_map (f := Prod.fst) (R := fun left right => compare left right = .lt)]
    at hfields ⊢
  rwa [map_fst_decodeValues h]

/-- A map whose values decode to themselves decodes to itself. -/
theorem decodeValues_eq_self {fields : Json.Fields}
    (h : ∀ field ∈ fields, decodeOne field.2 = .ok field.2) :
    decodeValues decodeOne fields = .ok fields := by
  induction fields with
  | nil => rfl
  | cons field fields ih =>
    obtain ⟨key, value⟩ := field
    obtain ⟨hvalue, hrest⟩ := List.forall_mem_cons.mp h
    change decodeOne value = .ok value at hvalue
    rw [decodeValues, hvalue, ih hrest]

/-- The values of a map that decodes to itself decode to themselves. -/
theorem decode_of_mem_decodeValues {fields : Json.Fields}
    (h : decodeValues decodeOne fields = .ok fields) {entry : String × Json}
    (hentry : entry ∈ fields) : decodeOne entry.2 = .ok entry.2 := by
  induction fields with
  | nil => contradiction
  | cons field fields ih =>
    obtain ⟨key, value⟩ := field
    obtain ⟨first, rest, hfirst, hrest, heq⟩ := decodeValues_cons_eq_ok h
    obtain ⟨hfield, rfl⟩ := List.cons.inj heq
    rcases List.mem_cons.mp hentry with rfl | hentry
    · exact (Prod.mk.inj hfield).2 ▸ hfirst
    · exact ih hrest hentry

theorem decodeItems_eq_self {items : List Json} (h : ∀ item ∈ items, decodeOne item = .ok item) :
    decodeItems decodeOne items = .ok items := by
  induction items with
  | nil => rfl
  | cons item items ih =>
    obtain ⟨hitem, hrest⟩ := List.forall_mem_cons.mp h
    rw [decodeItems, hitem, ih hrest]

/-! ## What decoding gives -/

theorem decode_mapOf_eq_ok {shape : Shape} {value canonical : Json}
    (h : (mapOf shape).decode value = .ok canonical) :
    ∃ fields result, value = .obj fields ∧ canonical = .obj result ∧
      decodeValues (fun member => shape.decode member) fields = .ok result := by
  cases value with
  | obj fields =>
    obtain ⟨result, hresult, rfl⟩ := eq_of_map_ok h
    exact ⟨fields, result, rfl, rfl, hresult⟩
  | _ => contradiction

theorem decode_listOf_eq_ok {shape : Shape} {value canonical : Json}
    (h : (listOf shape).decode value = .ok canonical) :
    ∃ items result, value = .arr items ∧ canonical = .arr result ∧
      decodeItems (fun item => shape.decode item) items = .ok result := by
  cases value with
  | arr items =>
    obtain ⟨result, hresult, rfl⟩ := eq_of_map_ok h
    exact ⟨items, result, rfl, rfl, hresult⟩
  | _ => contradiction

theorem decode_record_eq_ok {name : String} {fields : List Member} {value canonical : Json}
    (h : (record name fields).decode value = .ok canonical) :
    ∃ members result, value = .obj members ∧ canonical = .obj result ∧
      decodeFields fields members = .ok result := by
  cases value with
  | obj members =>
    obtain ⟨result, hresult, rfl⟩ := eq_of_map_ok h
    exact ⟨members, result, rfl, rfl, hresult⟩
  | _ => contradiction

theorem decodeInteger_eq_ok {low high : Int} {expected : String} {value canonical : Json}
    (h : decodeInteger low high expected value = .ok canonical) :
    ∃ n, low ≤ n ∧ n ≤ high ∧ canonical = .ofInt n := by
  unfold decodeInteger at h
  split at h
  next n =>
    split at h
    next hrange => exact ⟨n, hrange.1, hrange.2, (Except.ok.inj h).symm⟩
    next => contradiction
  next => contradiction

theorem decodeTime_eq_ok {value canonical : Json} (h : decodeTime value = .ok canonical) :
    ∃ t, t.Valid ∧ canonical = .str (Rfc3339.write t) := by
  unfold decodeTime at h
  split at h
  next s =>
    split at h
    next t hread => exact ⟨t, Rfc3339.valid_of_read hread, (Except.ok.inj h).symm⟩
    next => contradiction
  next => contradiction

theorem decodeBase64_eq_ok {value canonical : Json} (h : decodeBase64 value = .ok canonical) :
    ∃ s, Text.base64Fault? s.toList = none ∧ canonical = .str s := by
  unfold decodeBase64 at h
  split at h
  · exact ⟨"", rfl, (Except.ok.inj h).symm⟩
  next s =>
    split at h
    next hfault => exact ⟨s, hfault, (Except.ok.inj h).symm⟩
    next => contradiction
  next => contradiction

/-- What holds of texts, booleans and integers, and of arrays and objects that are made of
what it holds of, holds of every decoded value. -/
theorem decoded_induction {motive : Json → Prop} (str : ∀ s, motive (.str s))
    (bool : ∀ b, motive (.bool b)) (int : ∀ n, motive (.ofInt n))
    (arr : ∀ items, (∀ item ∈ items, motive item) → motive (.arr items))
    (obj : ∀ fields, (∀ field ∈ fields, motive field.2) → motive (.obj fields))
    {shape : Shape} {value canonical : Json} (hlawful : shape.lawful = true)
    (h : shape.decode value = .ok canonical) : motive canonical := by
  induction shape using induction generalizing value canonical with
  | text =>
    cases value with
    | str s => exact Except.ok.inj h ▸ str s
    | _ => contradiction
  | bool =>
    cases value with
    | bool b => exact Except.ok.inj h ▸ bool b
    | _ => contradiction
  | int32 | int64 =>
    obtain ⟨n, _, _, rfl⟩ := decodeInteger_eq_ok h
    exact int n
  | time =>
    obtain ⟨t, _, rfl⟩ := decodeTime_eq_ok h
    exact str _
  | base64 =>
    obtain ⟨s, _, rfl⟩ := decodeBase64_eq_ok h
    exact str s
  | mapOf shape ih =>
    obtain ⟨fields, result, rfl, rfl, hresult⟩ := decode_mapOf_eq_ok h
    refine obj result fun field hfield => ?_
    obtain ⟨member, _, hmember⟩ := exists_of_mem_decodeValues hresult hfield
    exact ih hlawful hmember
  | listOf shape ih =>
    obtain ⟨items, result, rfl, rfl, hresult⟩ := decode_listOf_eq_ok h
    refine arr result fun item hitem => ?_
    obtain ⟨member, _, hmember⟩ := exists_of_mem_decodeItems hresult hitem
    exact ih hlawful hmember
  | record name fields ih =>
    obtain ⟨members, result, rfl, rfl, hresult⟩ := decode_record_eq_ok h
    obtain ⟨hascending, hshapes⟩ := lawful_record_iff.mp hlawful
    refine obj result fun field hfield => ?_
    have hget :=
      (Entries.get?_eq_some_iff (ascending_of_decodeFields hascending hresult)).mpr hfield
    cases hkey : Entries.get? fields field.1 with
    | none => rw [get?_eq_none_of_decodeFields hresult hkey] at hget; contradiction
    | some member =>
      have hmember := decodeMember_of_decodeFields hascending hresult hkey
      rw [hget] at hmember
      obtain ⟨found, _, hdecode⟩ := exists_decode_of_decodeMember hmember
      have hmem := (Entries.get?_eq_some_iff hascending).mp hkey
      exact ih (field.1, member) hmem (hshapes _ hmem) hdecode

/-- A decoded value equals no value but itself. -/
theorem exact_of_decode {shape : Shape} {value canonical : Json} (hlawful : shape.lawful = true)
    (h : shape.decode value = .ok canonical) : canonical.Exact :=
  decoded_induction Json.exact_str Json.exact_bool Json.exact_ofInt (fun _ => Json.exact_arr)
    (fun _ => Json.exact_obj) hlawful h

/-- A decoded value is not null and holds no null. -/
theorem nullFree_of_decode {shape : Shape} {value canonical : Json}
    (hlawful : shape.lawful = true) (h : shape.decode value = .ok canonical) :
    canonical ≠ .null ∧ canonical.NullFree := by
  have hscalar : ∀ value : Json, value.isObject = false → value.NullFree := by
    intro value hother key path hnull
    rw [Json.at?_of_not_isObject hother] at hnull
    contradiction
  refine decoded_induction (motive := fun value => value ≠ .null ∧ value.NullFree)
    (fun s => ⟨nofun, hscalar _ rfl⟩) (fun b => ⟨nofun, hscalar _ rfl⟩)
    (fun n => ⟨nofun, hscalar _ rfl⟩) (fun items _ => ⟨nofun, hscalar _ rfl⟩) ?_ hlawful h
  intro fields ih
  refine ⟨nofun, ?_⟩
  intro key path hnull
  obtain ⟨member, hmember, hbelow⟩ := Option.bind_eq_some_iff.mp hnull
  obtain ⟨hne, hfree⟩ := ih (key, member) (Entries.mem_of_get?_eq_some hmember)
  cases path with
  | nil => exact hne (Option.some.inj hbelow)
  | cons next path => exact hfree next path hbelow

/-- A well-formed value has a well-formed canonical form. -/
theorem wellFormed_of_decode {shape : Shape} {value canonical : Json}
    (hlawful : shape.lawful = true) (hvalue : value.WellFormed)
    (h : shape.decode value = .ok canonical) : canonical.WellFormed := by
  induction shape using induction generalizing value canonical with
  | text =>
    cases value with
    | str s => exact Except.ok.inj h ▸ trivial
    | _ => contradiction
  | bool =>
    cases value with
    | bool b => exact Except.ok.inj h ▸ trivial
    | _ => contradiction
  | int32 | int64 =>
    obtain ⟨n, _, _, rfl⟩ := decodeInteger_eq_ok h
    trivial
  | time =>
    obtain ⟨t, _, rfl⟩ := decodeTime_eq_ok h
    trivial
  | base64 =>
    obtain ⟨s, _, rfl⟩ := decodeBase64_eq_ok h
    trivial
  | mapOf shape ih =>
    obtain ⟨fields, result, rfl, rfl, hresult⟩ := decode_mapOf_eq_ok h
    refine ⟨ascending_of_decodeValues hvalue.ascending hresult,
      Json.wellFormedFields_iff.mpr fun field hfield => ?_⟩
    obtain ⟨member, hmember, hdecode⟩ := exists_of_mem_decodeValues hresult hfield
    exact ih hlawful (Json.wellFormedFields_iff.mp hvalue.2 _ hmember) hdecode
  | listOf shape ih =>
    obtain ⟨items, result, rfl, rfl, hresult⟩ := decode_listOf_eq_ok h
    refine Json.wellFormedItems_iff.mpr fun item hitem => ?_
    obtain ⟨member, hmember, hdecode⟩ := exists_of_mem_decodeItems hresult hitem
    exact ih hlawful (Json.wellFormedItems_iff.mp hvalue member hmember) hdecode
  | record name fields ih =>
    obtain ⟨members, result, rfl, rfl, hresult⟩ := decode_record_eq_ok h
    obtain ⟨hascending, hshapes⟩ := lawful_record_iff.mp hlawful
    refine Json.wellFormed_obj_iff.mpr ⟨ascending_of_decodeFields hascending hresult, ?_⟩
    intro key value hget
    cases hkey : Entries.get? fields key with
    | none => rw [get?_eq_none_of_decodeFields hresult hkey] at hget; contradiction
    | some member =>
      have hmember := decodeMember_of_decodeFields hascending hresult hkey
      rw [hget] at hmember
      obtain ⟨found, hwhole, hdecode⟩ := exists_decode_of_decodeMember hmember
      have hmem := (Entries.get?_eq_some_iff hascending).mp hkey
      exact ih (key, member) hmem (hshapes _ hmem)
        (hwhole fun found hfound => hvalue.member hfound) hdecode

/-! ## Decoding again -/

/-- A member whose value decodes to itself is decoded to itself. -/
theorem decodeMember_eq_self {shape : Shape} {required : Bool} {found result : Option Json}
    (hlawful : shape.lawful = true) (h : decodeMember (required, shape) found = .ok result)
    (hself : ∀ value canonical, shape.decode value = .ok canonical →
      shape.decode canonical = .ok canonical) :
    decodeMember (required, shape) result = .ok result := by
  cases result with
  | none =>
    -- Only an absent optional member is decoded to nothing.
    cases required with
    | false => rfl
    | true =>
      cases found with
      | none => exact absurd (Except.ok.inj h) nofun
      | some value =>
        by_cases hnull : value = .null
        · subst hnull
          exact absurd (Except.ok.inj h) nofun
        · rw [decodeMember_of_ne_null hnull] at h
          obtain ⟨_, _, hnone⟩ := eq_of_map_ok h
          contradiction
  | some canonical =>
    obtain ⟨value, _, hdecode⟩ := exists_decode_of_decodeMember h
    rw [decodeMember_of_ne_null (nullFree_of_decode hlawful hdecode).1,
      hself value canonical hdecode]
    rfl

/-- What a value is decoded to decodes to itself. -/
theorem decode_eq_self {shape : Shape} {value canonical : Json} (hlawful : shape.lawful = true)
    (h : shape.decode value = .ok canonical) : shape.decode canonical = .ok canonical := by
  induction shape using induction generalizing value canonical with
  | text =>
    cases value with
    | str s => exact Except.ok.inj h ▸ rfl
    | _ => contradiction
  | bool =>
    cases value with
    | bool b => exact Except.ok.inj h ▸ rfl
    | _ => contradiction
  | int32 | int64 =>
    obtain ⟨n, hlow, hhigh, rfl⟩ := decodeInteger_eq_ok h
    exact if_pos ⟨hlow, hhigh⟩
  | time =>
    obtain ⟨t, hvalid, rfl⟩ := decodeTime_eq_ok h
    simp only [decode, decodeTime, Rfc3339.read_write hvalid, Rfc3339.write_truncate]
  | base64 =>
    obtain ⟨s, hfault, rfl⟩ := decodeBase64_eq_ok h
    simp only [decode, decodeBase64, hfault]
  | mapOf shape ih =>
    obtain ⟨fields, result, rfl, rfl, hresult⟩ := decode_mapOf_eq_ok h
    have hself : decodeValues (fun member => shape.decode member) result = .ok result := by
      refine decodeValues_eq_self fun field hfield => ?_
      obtain ⟨member, _, hmember⟩ := exists_of_mem_decodeValues hresult hfield
      exact ih hlawful hmember
    rw [decode, hself]
    rfl
  | listOf shape ih =>
    obtain ⟨items, result, rfl, rfl, hresult⟩ := decode_listOf_eq_ok h
    have hself : decodeItems (fun item => shape.decode item) result = .ok result := by
      refine decodeItems_eq_self fun item hitem => ?_
      obtain ⟨member, _, hmember⟩ := exists_of_mem_decodeItems hresult hitem
      exact ih hlawful hmember
    rw [decode, hself]
    rfl
  | record name fields ih =>
    obtain ⟨members, result, rfl, rfl, hresult⟩ := decode_record_eq_ok h
    obtain ⟨hascending, hshapes⟩ := lawful_record_iff.mp hlawful
    -- Each member of the result was decoded for itself, and no further ones are present.
    have hself : decodeFields fields result = .ok result := by
      refine decodeFields_eq_ok_of_members hascending
        (ascending_of_decodeFields hascending hresult) ?_ ?_
      · intro key member hkey
        have hmem := (Entries.get?_eq_some_iff hascending).mp hkey
        exact decodeMember_eq_self (hshapes _ hmem)
          (decodeMember_of_decodeFields hascending hresult hkey)
          fun _ _ hdecode => ih (key, member) hmem (hshapes _ hmem) hdecode
      · intro key hkey
        exact get?_eq_none_of_decodeFields hresult hkey
    rw [decode, hself]
    rfl

/-- A member that is present after decoding decodes to itself. -/
theorem decode_of_decodeMember {shape : Shape} {required : Bool} {found : Option Json}
    {canonical : Json} (hlawful : shape.lawful = true)
    (h : decodeMember (required, shape) found = .ok (some canonical)) :
    shape.decode canonical = .ok canonical := by
  obtain ⟨value, _, hdecode⟩ := exists_decode_of_decodeMember h
  exact decode_eq_self hlawful hdecode

end Shape

end ClusterObjects
