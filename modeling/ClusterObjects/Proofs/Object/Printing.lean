import ClusterObjects.Proofs.Json.Restoration
import ClusterObjects.Proofs.Object.Container

/-! # What containers print

A container that loads what another one of its kind prints prints the same. A
document that equals what a container prints is printed by a twin of that container:
only the free members of a generic object can differ, and only in the sign of zeros.
-/

namespace ClusterObjects

theorem Json.at?_ne_null {value : Json} (h : value ≠ .null ∧ value.NullFree)
    (path : List String) : value.at? path ≠ some .null := by
  cases path with
  | nil => exact fun hnull => h.1 (Option.some.inj hnull)
  | cons key path => exact h.2 key path

namespace Container

/-! ## Members -/

theorem get?_toJson_of_not_reserved {c : Container} {key : String} (hkey : key ∉ reserved) :
    c.toJson.get? key = c.body.get? key := by
  obtain ⟨hmetadata, hversion, hkind⟩ : key ≠ "metadata" ∧ key ≠ "apiVersion" ∧ key ≠ "kind" := by
    simpa [reserved] using hkey
  rw [get?_toJson, if_neg hmetadata.symm, if_neg hkind.symm, if_neg hversion.symm]

theorem WellFormed.get?_of_reserved {c : Container} (h : c.WellFormed) {key : String}
    (hkey : key ∈ reserved) : c.body.get? key = none := by
  have hcases : key = "metadata" ∨ key = "apiVersion" ∨ key = "kind" := by
    simpa [reserved] using hkey
  rcases hcases with rfl | rfl | rfl
  · exact h.noMetadata
  · exact h.noApiVersion
  · exact h.noKind

theorem ne_metadata_of_not_reserved {key : String} (hkey : key ∉ reserved) : key ≠ "metadata" := by
  rintro rfl
  exact hkey List.mem_cons_self

/-- Every member that a container prints is a decoded value, unless it is a free one of a
generic object. -/
theorem WellFormed.exists_decode {c : Container} (h : c.WellFormed) {key : String} {value : Json}
    (hvalue : c.toJson.get? key = some value)
    (hkey : key ∈ reserved ∨ ∃ kind, c.representation = .typed kind) :
    ∃ shape : Shape, shape.lawful = true ∧ shape.decode value = .ok value := by
  by_cases hreserved : key ∈ reserved
  · rw [get?_toJson, h.get?_of_reserved hreserved] at hvalue
    split at hvalue
    · rw [← Option.some.inj hvalue]
      exact ⟨Schema.metadata, Schema.lawful_metadata, h.metadata.canonical⟩
    · split at hvalue
      · rw [← Option.some.inj hvalue]
        exact ⟨.text, rfl, rfl⟩
      · split at hvalue
        · rw [← Option.some.inj hvalue]
          exact ⟨.text, rfl, rfl⟩
        · contradiction
  · obtain ⟨kind, hkind⟩ := hkey.resolve_left hreserved
    rw [get?_toJson_of_not_reserved hreserved] at hvalue
    have hdecoded := h.members kind hkind key (ne_metadata_of_not_reserved hreserved)
    cases hmember : Entries.get? kind.fields key with
    | none =>
      rw [hmember, hvalue] at hdecoded
      contradiction
    | some member =>
      obtain ⟨required, shape⟩ := member
      rw [hmember, hvalue] at hdecoded
      have hlawful := (h.lawful kind hkind).lawful_of_get? hmember
      exact ⟨shape, hlawful, Shape.decode_of_decodeMember hlawful hdecoded⟩

/-! ## Loading what was printed -/

section

variable {c d e : Container}

theorem Loaded.metadata_toJson_eq (h : c.Loaded e.toJson.fields d) (he : e.WellFormed) :
    d.metadata.toJson = e.metadata.toJson := by
  have hof : metadataOf e.toJson.fields = e.metadata.toJson := by
    have hfound : Entries.get? e.toJson.fields "metadata" = some e.metadata.toJson :=
      e.get?_toJson "metadata"
    unfold metadataOf
    rw [hfound]
    rfl
  have hdecode := h.metadata
  rw [hof, he.metadata.canonical] at hdecode
  exact (Except.ok.inj hdecode).symm

/-- The members of a printed object were decoded before, so decoding keeps them. -/
theorem Loaded.body_eq (h : c.Loaded e.toJson.fields d) (he : e.WellFormed)
    (hrep : e.representation = c.emptyLike.representation) : d.body = e.body := by
  refine h.ascending.ext he.body.ascending fun key => ?_
  by_cases hkey : key ∈ Container.reserved
  · rw [h.reserved key hkey, he.get?_of_reserved hkey]
  · have hprinted := @get?_toJson_of_not_reserved e key hkey
    cases hkind : c.representation with
    | generic apiVersion kind =>
      rw [h.generic apiVersion kind hkind key hkey]
      exact hprinted
    | typed kind =>
      have hmetadataKey := ne_metadata_of_not_reserved hkey
      have hloaded := h.typed kind hkind key hmetadataKey
      have hown := he.members kind (hrep.trans (representation_emptyLike.mpr hkind)) key
        hmetadataKey
      change Entries.get? e.toJson.fields key = _ at hprinted
      cases hmember : Entries.get? kind.fields key with
      | none =>
        rw [hmember] at hloaded hown
        rw [hloaded, hown]
      | some member =>
        rw [hmember] at hloaded hown
        dsimp only at hloaded hown
        rw [hprinted, hown] at hloaded
        exact (Except.ok.inj hloaded).symm

/-- A container that loads what another one of its kind prints prints the same. -/
theorem Loaded.toJson_eq (h : c.Loaded e.toJson.fields d) (he : e.WellFormed)
    (hrep : e.representation = c.emptyLike.representation) : d.toJson = e.toJson := by
  rw [d.toJson_eq, e.toJson_eq, h.metadata_toJson_eq he, h.body_eq he hrep,
    statedKind_eq_of_representation (h.representation.trans hrep.symm)]

end

/-- What is loaded from a document holds null only where the document does, apart from
its metadata, and so does every object with the same members. -/
theorem Loaded.nullsWithin {c d object : Container} {value stored : Json}
    (h : c.Loaded value.fields d) (hobject : object.WellFormed)
    (hrep : object.representation = d.representation) (hbody : object.body = d.body)
    (hnulls : value.NullsWithin stored) : object.toJson.NullsWithin stored := by
  intro key path hnull
  rw [Json.at?] at hnull
  obtain ⟨member, hmember, hnull⟩ := Option.bind_eq_some_iff.mp hnull
  -- Decoded members hold no null; only free members of a generic object are left.
  have hdecoded : (key ∈ Container.reserved ∨ ∃ kind, object.representation = .typed kind) →
      object.toJson.at? (key :: path) ≠ some .null := by
    intro hkey
    obtain ⟨shape, hlawful, hdecode⟩ := hobject.exists_decode hmember hkey
    rw [Json.at?, hmember]
    exact Json.at?_ne_null (Shape.nullFree_of_decode hlawful hdecode) path
  have hprinted : object.toJson.at? (key :: path) = some .null := by
    rw [Json.at?, hmember]
    exact hnull
  by_cases hkey : key ∈ Container.reserved
  · exact absurd hprinted (hdecoded (Or.inl hkey))
  · rw [get?_toJson_of_not_reserved hkey] at hmember
    cases hkind : object.representation with
    | typed kind => exact absurd hprinted (hdecoded (Or.inr ⟨kind, hkind⟩))
    | generic apiVersion kind =>
      refine hnulls key path ?_
      have hgeneric : ∃ apiVersion kind, c.representation = .generic apiVersion kind := by
        cases hc : c.representation with
        | generic apiVersion kind => exact ⟨apiVersion, kind, rfl⟩
        | typed other =>
          rw [hrep, h.representation, representation_emptyLike.mpr hc] at hkind
          contradiction
      obtain ⟨_, _, hgeneric⟩ := hgeneric
      have hfound := h.generic _ _ hgeneric key hkey
      rw [← hbody, hmember] at hfound
      rw [Json.at?, Json.get?, ← hfound]
      exact hnull

/-! ## Twins -/

/-- Two containers hold the same up to the sign of zeros in their members. -/
structure Twin (c d : Container) : Prop where
  representation : c.representation = d.representation
  metadata : c.metadata = d.metadata
  body : ∀ key, Json.SameAt (c.body.get? key) (d.body.get? key)

theorem Twin.same_toJson {c d : Container} (h : c.Twin d) (hc : c.WellFormed)
    (hd : d.WellFormed) : c.toJson.same d.toJson = true := by
  refine Json.same_of_get? hc.toJson hd.toJson rfl rfl fun key => ?_
  rw [get?_toJson, get?_toJson, h.metadata, statedKind_eq_of_representation h.representation]
  split
  · exact .refl _
  · split
    · exact .refl _
    · split
      · exact .refl _
      · exact h.body key

theorem Twin.setText {c d : Container} (h : c.Twin d) (key text : String) :
    (c.setText key text).Twin (d.setText key text) :=
  ⟨h.representation, congrArg (·.setText key text) h.metadata, h.body⟩

/-- The container with the members that a document adds to kind and metadata. -/
def withMembers (c : Container) (value : Json) : Container :=
  { c with body := ((value.fields.erase "metadata").erase "apiVersion").erase "kind" }

theorem get?_body_withMembers (c : Container) {value : Json} (hvalue : value.WellFormed)
    (key : String) :
    (c.withMembers value).body.get? key = if key ∈ reserved then none else value.get? key :=
  get?_eraseReserved hvalue.ascending_fields key

/-- Members of a document that equals what a container prints are the same as its own, unless
they are free. -/
theorem WellFormed.get?_eq_of_same {c : Container} (h : c.WellFormed) {value : Json}
    (hsame : value.same c.toJson = true) {key : String}
    (hkey : key ∈ reserved ∨ ∃ kind, c.representation = .typed kind) :
    value.get? key = c.toJson.get? key := by
  refine Json.eq_of_sameAt (Json.get?_of_same hsame key) fun member hmember => ?_
  obtain ⟨shape, hlawful, hdecode⟩ := h.exists_decode hmember hkey
  exact Shape.exact_of_decode hlawful hdecode

theorem WellFormed.withMembers {c : Container} (h : c.WellFormed) {value : Json}
    (hvalue : value.WellFormed) (hsame : value.same c.toJson = true) :
    (c.withMembers value).WellFormed := by
  have hget := c.get?_body_withMembers hvalue
  have hwhole : (Json.obj value.fields).WellFormed := by
    rwa [← Json.eq_obj_of_isObject (Json.isObject_eq_of_same hsame)]
  refine ⟨h.lawful, h.metadata, ((hwhole.erase _).erase _).erase _, ?_, ?_, ?_,
    fun kind hkind key hkey => ?_⟩
  · exact (hget _).trans (if_pos (by decide))
  · exact (hget _).trans (if_pos (by decide))
  · exact (hget _).trans (if_pos (by decide))
  · have hown : (c.withMembers value).body.get? key = c.body.get? key := by
      rw [hget]
      split
      next hreserved => rw [h.get?_of_reserved hreserved]
      next hreserved =>
        rw [h.get?_eq_of_same hsame (Or.inr ⟨kind, hkind⟩), get?_toJson_of_not_reserved hreserved]
    rw [hown]
    exact h.members kind hkind key hkey

/-- A document that equals what a container prints is printed by a twin of it. -/
theorem exists_twin {c : Container} (hc : c.WellFormed) {value : Json} (hvalue : value.WellFormed)
    (hsame : value.same c.toJson = true) :
    ∃ d : Container, d.WellFormed ∧ d.Twin c ∧ value = d.toJson := by
  have hget := c.get?_body_withMembers hvalue
  have htwin := hc.withMembers hvalue hsame
  refine ⟨c.withMembers value, htwin, ⟨rfl, rfl, fun key => ?_⟩, ?_⟩
  · rw [hget]
    split
    next hkey =>
      rw [hc.get?_of_reserved hkey]
      exact .none
    next hkey =>
      rw [← get?_toJson_of_not_reserved hkey]
      exact Json.get?_of_same hsame key
  · -- Kind and metadata are exact: only free members can differ, in the sign of a zero.
    rw [Json.eq_obj_of_isObject (Json.isObject_eq_of_same hsame)]
    refine congrArg Json.obj ?_
    refine hvalue.ascending_fields.ext htwin.toJson.ascending_fields fun key => ?_
    change value.get? key = (c.withMembers value).toJson.get? key
    by_cases hkey : key ∈ reserved
    · rw [hc.get?_eq_of_same hsame (Or.inl hkey), get?_toJson, get?_toJson,
        hc.get?_of_reserved hkey, htwin.get?_of_reserved hkey]
      rfl
    · rw [get?_toJson_of_not_reserved hkey, hget, if_neg hkey]

/-- A document that equals what is loaded from it is the same. -/
theorem Loaded.eq_of_same {c d : Container} {value : Json} (h : c.Loaded value.fields d)
    (hd : d.WellFormed) (hvalue : value.WellFormed) (hsame : value.same d.toJson = true) :
    d.toJson = value := by
  rw [Json.eq_obj_of_isObject (Json.isObject_eq_of_same hsame)]
  refine congrArg Json.obj ?_
  refine hd.toJson.ascending_fields.ext hvalue.ascending_fields fun key => ?_
  change d.toJson.get? key = value.get? key
  by_cases hkey : key ∈ Container.reserved
  · exact (hd.get?_eq_of_same hsame (Or.inl hkey)).symm
  · cases hkind : c.representation with
    | typed kind =>
      have htyped := h.representation.trans (representation_emptyLike.mpr hkind)
      exact (hd.get?_eq_of_same hsame (Or.inr ⟨kind, htyped⟩)).symm
    | generic apiVersion kind =>
      rw [get?_toJson_of_not_reserved hkey]
      exact h.generic apiVersion kind hkind key hkey

end Container

end ClusterObjects
