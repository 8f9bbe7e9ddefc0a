import ClusterObjects.Object.Container
import ClusterObjects.Proofs.Identity.Kind
import ClusterObjects.Proofs.Object.Metadata

/-! # Well-formed containers

A well-formed container holds metadata in canonical form, no member that states
its kind or its metadata a second time, and, if it is typed, the members of its
shape in canonical form. Loading gives well-formed containers, stating a text of
the metadata keeps them so, and what a well-formed container prints can be loaded
again wherever its kind is read back.
-/

namespace ClusterObjects

/-- The keys of a typed kind ascend, the metadata is among its members and the members that
state the kind are not, and its identity can be read back from these. -/
structure TypedKind.Lawful (kind : TypedKind) : Prop where
  shape : (Shape.record kind.gvk.kind kind.fields).lawful = true
  metadata : Entries.get? kind.fields "metadata" = some (true, Schema.metadata)
  noApiVersion : Entries.get? kind.fields "apiVersion" = none
  noKind : Entries.get? kind.fields "kind" = none
  identity : Gvk.ofApiVersion kind.gvk.apiVersion kind.gvk.kind = kind.gvk

theorem TypedKind.Lawful.ascending {kind : TypedKind} (h : kind.Lawful) :
    Entries.Ascending kind.fields :=
  (Shape.lawful_record_iff.mp h.shape).1

theorem TypedKind.Lawful.lawful_of_get? {kind : TypedKind} (h : kind.Lawful) {key : String}
    {required : Bool} {shape : Shape}
    (hkey : Entries.get? kind.fields key = some (required, shape)) :
    shape.lawful = true :=
  (Shape.lawful_record_iff.mp h.shape).2 _ ((Entries.get?_eq_some_iff h.ascending).mp hkey)

namespace Container

/-- The kind of a typed container is lawful. -/
def Lawful (c : Container) : Prop := ∀ kind, c.representation = .typed kind → kind.Lawful

/-- What a container that can be handed to a store holds. -/
structure WellFormed (c : Container) : Prop where
  lawful : c.Lawful
  metadata : c.metadata.WellFormed
  body : (Json.obj c.body).WellFormed
  noMetadata : c.body.get? "metadata" = none
  noApiVersion : c.body.get? "apiVersion" = none
  noKind : c.body.get? "kind" = none
  members : ∀ kind, c.representation = .typed kind → ∀ key, key ≠ "metadata" →
    match Entries.get? kind.fields key with
    | none => c.body.get? key = none
    | some member => Shape.decodeMember member (c.body.get? key) = .ok (c.body.get? key)

/-- The text by which the object states its kind is the one that its kind is written with. -/
def Coherent (c : Container) : Prop := c.statedKind.1 = c.gvk.apiVersion

/-- A container is coherent unless it is generic and states its kind with a slash in front. -/
theorem coherent_iff (c : Container) :
    c.Coherent ↔ ∀ apiVersion kind, c.representation = .generic apiVersion kind →
      apiVersion.toList.head? ≠ some '/' := by
  unfold Coherent statedKind gvk
  cases c.representation with
  | typed kind => exact iff_of_true rfl fun _ _ hrep => Representation.noConfusion hrep
  | generic apiVersion kind =>
    refine eq_comm.trans (Gvk.apiVersion_ofApiVersion_iff.trans ⟨fun h other _ hrep => ?_, fun h =>
      h apiVersion kind rfl⟩)
    rwa [← (Representation.generic.inj hrep).1]

/-- The members that loading decodes. -/
def decodedMembers (c : Container) : List Shape.Member :=
  match c.representation with
  | .typed kind => kind.fields
  | .generic .. => [Schema.metadataMember]

theorem get?_decodedMembers_metadata {c : Container} (h : c.Lawful) :
    Entries.get? c.decodedMembers "metadata" = some (true, Schema.metadata) := by
  unfold decodedMembers
  cases hrep : c.representation with
  | typed kind => exact (h kind hrep).metadata
  | generic apiVersion kind => rfl

theorem typed_of_decodedMembers {c : Container} {key : String} {member : Bool × Shape}
    (hkey : Entries.get? c.decodedMembers key = some member) (hne : key ≠ "metadata") :
    ∃ kind, c.representation = .typed kind ∧ Entries.get? kind.fields key = some member := by
  unfold decodedMembers at hkey
  cases hrep : c.representation with
  | typed kind =>
    rw [hrep] at hkey
    exact ⟨kind, rfl, hkey⟩
  | generic apiVersion kind =>
    rw [hrep] at hkey
    have hmem := List.mem_singleton.mp (Entries.mem_of_get?_eq_some hkey)
    exact absurd (Prod.mk.inj hmem).1 hne

/-- A value states the given kind or leaves it open. -/
def StatesKind (gvk : Gvk) (value : Json) : Prop :=
  (stated? value.fields "apiVersion").getD gvk.apiVersion = gvk.apiVersion ∧
    (stated? value.fields "kind").getD gvk.kind = gvk.kind

/-- A text is stated or left open exactly if no other text stands under the key, apart from the
empty one. -/
theorem getD_stated?_iff {fields : Json.Fields} {key text : String} :
    (stated? fields key).getD text = text ↔
      ∀ other, fields.get? key = some (.str other) → other ≠ "" → other = text := by
  unfold stated?
  cases hfound : Entries.get? fields key with
  | none => simp
  | some value =>
    cases value with
    | str other => by_cases hempty : other = "" <;> simp [Json.text?, Option.filter_some, hempty]
    | _ => simp [Json.text?]

/-- A value that a container can load: an object that does not state another kind, with
members that can be decoded. -/
structure Accepts (c : Container) (value : Json) : Prop where
  object : value.isObject = true
  statesKind : StatesKind c.gvk value
  members : ∀ key required shape, Entries.get? c.decodedMembers key = some (required, shape) →
    shape.MemberFits (value.get? key)

/-! ## The object as a value -/

theorem snd_statedKind (c : Container) : c.statedKind.2 = c.gvk.kind := by
  unfold statedKind gvk
  cases c.representation with
  | typed kind => rfl
  | generic apiVersion kind =>
    simp only [Gvk.ofApiVersion]
    split <;> rfl

theorem toJson_eq (c : Container) :
    c.toJson = .obj (((c.body.insert "apiVersion" (.str c.statedKind.1)).insert "kind"
      (.str c.statedKind.2)).insert "metadata" c.metadata.toJson) := rfl

theorem get?_toJson (c : Container) (key : String) :
    c.toJson.get? key =
      if "metadata" = key then some c.metadata.toJson
      else if "kind" = key then some (.str c.statedKind.2)
      else if "apiVersion" = key then some (.str c.statedKind.1)
      else c.body.get? key := by
  rw [toJson_eq, Json.get?, Json.fields, Entries.get?_insert, Entries.get?_insert,
    Entries.get?_insert]

theorem WellFormed.toJson {c : Container} (h : c.WellFormed) : c.toJson.WellFormed :=
  ((h.body.insert (.str _)).insert (.str _)).insert h.metadata.whole

theorem gvk_eq_of_representation {c d : Container} (h : c.representation = d.representation) :
    c.gvk = d.gvk := by
  unfold gvk
  rw [h]

theorem statedKind_eq_of_representation {c d : Container}
    (h : c.representation = d.representation) : c.statedKind = d.statedKind := by
  unfold statedKind
  rw [h]

theorem gvk_emptyLike_of_typed {c : Container} {kind : TypedKind}
    (h : c.representation = .typed kind) : c.emptyLike.gvk = c.gvk := by
  unfold emptyLike gvk
  rw [h]
  rfl

theorem gvk_emptyLike_of_generic {c : Container} {apiVersion kind : String}
    (h : c.representation = .generic apiVersion kind) :
    c.emptyLike.gvk = Gvk.ofApiVersion c.gvk.apiVersion c.gvk.kind := by
  rw [emptyLike, h]
  rfl

/-- The kind that a container has after loading. -/
theorem gvk_emptyLike (c : Container) :
    c.emptyLike.gvk = c.gvk ∨ c.emptyLike.gvk = Gvk.ofApiVersion c.gvk.apiVersion c.gvk.kind := by
  cases hrep : c.representation with
  | typed kind => exact Or.inl (gvk_emptyLike_of_typed hrep)
  | generic apiVersion kind => exact Or.inr (gvk_emptyLike_of_generic hrep)

theorem coherent_of_representation {c d : Container} (h : c.representation = d.representation)
    (hd : d.Coherent) : c.Coherent := by
  unfold Coherent
  rw [statedKind_eq_of_representation h, gvk_eq_of_representation h]
  exact hd

/-! ## Which values can be loaded -/

theorem checkKind_eq_ok_iff {gvk : Gvk} {value : Json} {fields : Json.Fields} :
    checkKind gvk value = .ok fields ↔ value = .obj fields ∧ StatesKind gvk value := by
  unfold checkKind StatesKind
  cases value with
  | obj members =>
    dsimp only [Json.fields]
    split
    next h =>
      constructor
      · intro heq
        rw [Except.ok.inj heq]
        exact ⟨rfl, Except.ok.inj heq ▸ h⟩
      · rintro ⟨heq, _⟩
        rw [Json.obj.inj heq]
    next h =>
      constructor
      · intro heq; contradiction
      · rintro ⟨_, hstates⟩
        exact absurd hstates h
  | _ =>
    constructor
    · intro heq; contradiction
    · rintro ⟨heq, _⟩; contradiction

/-- Only the metadata is touched where its managed fields are dropped. -/
theorem get?_dropManagedFields (fields : Json.Fields) (key : String) :
    (dropManagedFields fields).get? key =
      if "metadata" = key then (fields.get? "metadata").map fun metadata =>
        if metadata.isObject then .obj (metadata.fields.erase "managedFields") else metadata
      else fields.get? key := by
  unfold dropManagedFields
  split
  next metadata hmetadata =>
    rw [Entries.get?_insert, hmetadata]
    rfl
  next hother =>
    split
    next hkey =>
      subst hkey
      cases hfound : Entries.get? fields "metadata" with
      | none => rfl
      | some metadata =>
        cases metadata with
        | obj members => exact absurd hfound (hother members)
        | _ => rfl
    next => rfl

theorem wellFormed_dropManagedFields {fields : Json.Fields} (h : (Json.obj fields).WellFormed) :
    (Json.obj (dropManagedFields fields)).WellFormed := by
  unfold dropManagedFields
  split
  next metadata hmetadata => exact h.insert (Json.WellFormed.erase (h.member hmetadata) _)
  next => exact h

/-- The managed fields are no member of the metadata: dropping them costs nothing. -/
theorem decode_metadataOf_dropManagedFields {fields : Json.Fields}
    (h : (Json.obj fields).WellFormed) :
    Schema.metadata.decode (metadataOf (dropManagedFields fields)) =
      Schema.metadata.decode (metadataOf fields) := by
  have hmember : ∀ field ∈ Schema.metadataMembers, field.1 ≠ "managedFields" := by decide
  unfold metadataOf
  rw [get?_dropManagedFields, if_pos rfl]
  cases hmetadata : Entries.get? fields "metadata" with
  | none => rfl
  | some metadata =>
    cases metadata with
    | obj members =>
      have hascending := (h.member hmetadata).ascending
      have hdecode : Shape.decodeFields Schema.metadataMembers
            (Entries.erase members "managedFields") =
          Shape.decodeFields Schema.metadataMembers members :=
        Shape.decodeFields_congr fun field hfield => by
          rw [Entries.get?_erase hascending, if_neg (hmember field hfield).symm]
      change Schema.metadata.decode (.obj (Entries.erase members "managedFields")) =
        Schema.metadata.decode (.obj members)
      rw [Schema.metadata_eq, Shape.decode, Shape.decode, hdecode]
    | _ => rfl

/-! ## What loading gives -/

/-- The contents of a container of the same kind from the members of an object. -/
def contents (c : Container) (fields : Json.Fields) : Except ObjectError Container :=
  match c.representation with
  | .typed kind => loadTyped kind fields
  | .generic .. => loadGeneric c.gvk fields

theorem load_eq_ok_iff {c d : Container} {value : Json} :
    c.load value = .ok d ↔ ∃ fields, value = .obj fields ∧ StatesKind c.gvk value ∧
      c.contents (dropManagedFields fields) = .ok d := by
  unfold load
  cases hcheck : checkKind c.gvk value with
  | error e =>
    constructor
    · intro h; contradiction
    · rintro ⟨fields, hvalue, hstates, _⟩
      rw [checkKind_eq_ok_iff.mpr ⟨hvalue, hstates⟩] at hcheck
      contradiction
  | ok fields =>
    obtain ⟨rfl, hstates⟩ := checkKind_eq_ok_iff.mp hcheck
    constructor
    · intro h
      exact ⟨fields, rfl, hstates, h⟩
    · rintro ⟨others, heq, _, h⟩
      rw [← Json.obj.inj heq] at h
      exact h

/-- Containers of one kind, both generic or both typed with the same shape. -/
structure Kin (c d : Container) : Prop where
  gvk : c.gvk = d.gvk
  typed : ∀ kind, c.representation = .typed kind ↔ d.representation = .typed kind

theorem kin_of_representation {c d : Container} (h : c.representation = d.representation) :
    c.Kin d :=
  ⟨gvk_eq_of_representation h, fun _ => by rw [h]⟩

theorem Kin.isTyped {c d : Container} (h : c.Kin d) : c.isTyped = d.isTyped := by
  have htyped : ∀ other : Container, other.isTyped = true ↔
      ∃ kind, other.representation = .typed kind := by
    intro other
    unfold Container.isTyped
    cases other.representation <;> simp
  rw [Bool.eq_iff_iff, htyped, htyped]
  exact exists_congr h.typed

/-- What is loaded depends on the kind alone. -/
theorem Kin.load_eq {c d : Container} (h : c.Kin d) (value : Json) :
    c.load value = d.load value := by
  unfold load
  rw [h.gvk]
  cases hc : c.representation with
  | typed kind => rw [(h.typed kind).mp hc]
  | generic apiVersion kind =>
    cases hd : d.representation with
    | typed other =>
      rw [(h.typed other).mpr hd] at hc
      contradiction
    | generic => rfl

/-- Loading keeps a container of its kind and its representation. -/
theorem representation_of_load {c d : Container} {value : Json} (h : c.load value = .ok d) :
    d.representation = c.emptyLike.representation := by
  obtain ⟨fields, _, _, hcontents⟩ := load_eq_ok_iff.mp h
  unfold contents at hcontents
  unfold emptyLike
  cases hrep : c.representation with
  | typed kind =>
    rw [hrep] at hcontents
    change loadTyped kind _ = _ at hcontents
    unfold loadTyped at hcontents
    split at hcontents
    · contradiction
    · rw [← Except.ok.inj hcontents]
      rfl
  | generic apiVersion kind =>
    rw [hrep] at hcontents
    change loadGeneric c.gvk _ = _ at hcontents
    unfold loadGeneric at hcontents
    split at hcontents
    · contradiction
    · rw [← Except.ok.inj hcontents]
      rfl

/-- A value that states the kind of a container is refused for nothing but its members. -/
theorem exists_decode_of_load_eq_error {c : Container} {value : Json} {e : ObjectError}
    (hvalue : value.isObject = true) (hstates : StatesKind c.gvk value)
    (h : c.load value = .error e) : ∃ reason, e = .decode reason := by
  obtain ⟨fields, rfl⟩ : ∃ fields, value = .obj fields := by
    cases value with
    | obj fields => exact ⟨fields, rfl⟩
    | _ => contradiction
  unfold load at h
  rw [checkKind_eq_ok_iff.mpr ⟨rfl, hstates⟩] at h
  dsimp only at h
  split at h
  · unfold loadTyped at h
    split at h
    next reason _ => exact ⟨reason, (Except.error.inj h).symm⟩
    next => contradiction
  · unfold loadGeneric at h
    split at h
    next reason _ => exact ⟨reason, (Except.error.inj h).symm⟩
    next => contradiction

/-- A value that states the kind by its texts states it. -/
theorem statesKind_of_textAt? {gvk : Gvk} {value : Json}
    (hversion : value.textAt? "apiVersion" = some gvk.apiVersion)
    (hkind : value.textAt? "kind" = some gvk.kind) : StatesKind gvk value := by
  have hstated : ∀ key text, value.textAt? key = some text →
      (stated? value.fields key).getD text = text := by
    intro key text htext
    refine getD_stated?_iff.mpr fun other hother _ => ?_
    have hfound : value.textAt? key = some other := congrArg (·.bind Json.text?) hother
    exact Option.some.inj (hfound.symm.trans htext)
  exact ⟨hstated _ _ hversion, hstated _ _ hkind⟩

/-- The members that state the kind or the metadata. -/
def reserved : List String := ["metadata", "apiVersion", "kind"]

/-- What a container holds after loading an object with the given members. -/
structure Loaded (c : Container) (fields : Json.Fields) (d : Container) : Prop where
  representation : d.representation = c.emptyLike.representation
  metadata : Schema.metadata.decode (metadataOf fields) = .ok d.metadata.toJson
  ascending : d.body.Ascending
  reserved : ∀ key ∈ reserved, d.body.get? key = none
  typed : ∀ kind, c.representation = .typed kind → ∀ key, key ≠ "metadata" →
    match Entries.get? kind.fields key with
    | none => d.body.get? key = none
    | some member => Shape.decodeMember member (fields.get? key) = .ok (d.body.get? key)
  generic : ∀ apiVersion kind, c.representation = .generic apiVersion kind →
    ∀ key, key ∉ Container.reserved → d.body.get? key = fields.get? key

theorem decodeMember_metadata (fields : Json.Fields) :
    Shape.decodeMember (true, Schema.metadata) (fields.get? "metadata") =
      (Schema.metadata.decode (metadataOf fields)).map some := by
  unfold metadataOf
  cases hfound : Entries.get? fields "metadata" with
  | none => rfl
  | some value => cases value <;> rfl

theorem eq_obj_of_decode_metadata {value canonical : Json}
    (h : Schema.metadata.decode value = .ok canonical) : canonical = .obj canonical.fields := by
  obtain ⟨_, result, _, rfl, _⟩ := Schema.decode_metadata_eq_ok h
  rfl

/-- The members but those that state the kind or the metadata. -/
theorem get?_eraseReserved {fields : Json.Fields} (hfields : fields.Ascending) (key : String) :
    (((fields.erase "metadata").erase "apiVersion").erase "kind").get? key =
      if key ∈ reserved then none else fields.get? key := by
  rw [Entries.get?_erase ((hfields.erase _).erase _), Entries.get?_erase (hfields.erase _),
    Entries.get?_erase hfields]
  by_cases hkey : key ∈ reserved
  · rw [if_pos hkey]
    simp only [reserved, List.mem_cons, List.not_mem_nil, or_false] at hkey
    rcases hkey with rfl | rfl | rfl <;> simp
  · rw [if_neg hkey]
    simp only [reserved, List.mem_cons, List.not_mem_nil, or_false, not_or] at hkey
    rw [if_neg (Ne.symm hkey.2.2), if_neg (Ne.symm hkey.2.1), if_neg (Ne.symm hkey.1)]

theorem loaded_of_loadTyped {c d : Container} {kind : TypedKind} {fields : Json.Fields}
    (hkind : c.representation = .typed kind) (hlawful : kind.Lawful)
    (h : loadTyped kind fields = .ok d) : c.Loaded fields d := by
  unfold loadTyped at h
  cases hdecode : Shape.decodeFields kind.fields fields with
  | error e => rw [hdecode] at h; contradiction
  | ok canonical =>
    rw [hdecode] at h
    obtain rfl := Except.ok.inj h
    have hascending := Shape.ascending_of_decodeFields hlawful.ascending hdecode
    have hmetadata := Shape.decodeMember_of_decodeFields hlawful.ascending hdecode hlawful.metadata
    rw [decodeMember_metadata] at hmetadata
    obtain ⟨metadata, hcanonical, hfound⟩ := eq_of_map_ok hmetadata
    have hof : metadataOf canonical = metadata := by
      unfold metadataOf
      rw [← hfound]
      have hne := (Shape.nullFree_of_decode Schema.lawful_metadata hcanonical).1
      cases metadata <;> first | rfl | contradiction
    have hbody : ∀ key, key ≠ "metadata" →
        (Entries.erase canonical "metadata").get? key = canonical.get? key := by
      intro key hkey
      rw [Entries.get?_erase hascending, if_neg hkey.symm]
    refine ⟨?_, ?_, hascending.erase _, ?_, ?_, ?_⟩
    · simp only [emptyLike, hkind, ofTyped]
    · dsimp only [Metadata.toJson]
      rw [hof, ← eq_obj_of_decode_metadata hcanonical, hcanonical]
    · intro key hkey
      dsimp only
      simp only [Container.reserved, List.mem_cons, List.not_mem_nil, or_false] at hkey
      rcases hkey with rfl | rfl | rfl
      · rw [Entries.get?_erase hascending, if_pos rfl]
      · rw [hbody _ (by decide),
          Shape.get?_eq_none_of_decodeFields hdecode hlawful.noApiVersion]
      · rw [hbody _ (by decide), Shape.get?_eq_none_of_decodeFields hdecode hlawful.noKind]
    · intro other hother key hkey
      rw [hkind] at hother
      obtain rfl := Representation.typed.inj hother
      dsimp only
      rw [hbody key hkey]
      cases hmember : Entries.get? kind.fields key with
      | none => exact Shape.get?_eq_none_of_decodeFields hdecode hmember
      | some member => exact Shape.decodeMember_of_decodeFields hlawful.ascending hdecode hmember
    · intro apiVersion other hother
      rw [hkind] at hother
      contradiction

theorem loaded_of_loadGeneric {c d : Container} {apiVersion kind : String} {fields : Json.Fields}
    (hgeneric : c.representation = .generic apiVersion kind) (hfields : fields.Ascending)
    (h : loadGeneric c.gvk fields = .ok d) : c.Loaded fields d := by
  unfold loadGeneric Metadata.decode at h
  cases hdecode : Schema.metadata.decode (metadataOf fields) with
  | error e => rw [hdecode] at h; contradiction
  | ok canonical =>
    rw [hdecode] at h
    obtain rfl := Except.ok.inj h
    have hbody := get?_eraseReserved hfields
    refine ⟨?_, ?_, ((hfields.erase _).erase _).erase _, ?_, ?_, ?_⟩
    · simp only [emptyLike, hgeneric, Container.generic]
    · exact hdecode.trans (congrArg Except.ok (eq_obj_of_decode_metadata hdecode))
    · intro key hkey
      exact (hbody key).trans (if_pos hkey)
    · intro other hother
      rw [hgeneric] at hother
      contradiction
    · intro _ _ _ key hkey
      exact (hbody key).trans (if_neg hkey)

/-- What loading a value gives. -/
theorem loaded_of_load {c d : Container} {value : Json}
    (hkind : c.Lawful) (hvalue : value.WellFormed)
    (h : c.load value = .ok d) : c.Loaded value.fields d := by
  obtain ⟨fields, rfl, _, hcontents⟩ := load_eq_ok_iff.mp h
  have hdropped := wellFormed_dropManagedFields hvalue
  have hloaded : c.Loaded (dropManagedFields fields) d := by
    unfold contents at hcontents
    cases hrep : c.representation with
    | typed kind =>
      rw [hrep] at hcontents
      exact loaded_of_loadTyped hrep (hkind kind hrep) hcontents
    | generic apiVersion kind =>
      rw [hrep] at hcontents
      exact loaded_of_loadGeneric hrep hdropped.ascending hcontents
  have hother : ∀ key, key ≠ "metadata" →
      (dropManagedFields fields).get? key = Entries.get? fields key := by
    intro key hkey
    rw [get?_dropManagedFields, if_neg hkey.symm]
  refine { hloaded with metadata := ?_, typed := ?_, generic := ?_ }
  · rw [← hloaded.metadata, decode_metadataOf_dropManagedFields hvalue]
    rfl
  · intro kind hrep key hkey
    have hmember := hloaded.typed kind hrep key hkey
    rwa [hother key hkey] at hmember
  · intro apiVersion kind hrep key hkey
    rw [hloaded.generic apiVersion kind hrep key hkey]
    exact hother key fun heq => hkey (heq ▸ List.mem_cons_self)

theorem representation_emptyLike {c : Container} {kind : TypedKind} :
    c.emptyLike.representation = .typed kind ↔ c.representation = .typed kind := by
  unfold emptyLike
  cases c.representation with
  | typed other => exact Iff.rfl
  | generic apiVersion name =>
    constructor
    · intro h; contradiction
    · intro h; contradiction

theorem wellFormed_metadataOf {fields : Json.Fields} (h : (Json.obj fields).WellFormed) :
    (metadataOf fields).WellFormed := by
  unfold metadataOf
  split
  · exact .nil
  · exact .nil
  next hfound => exact h.member hfound

/-- What is loaded from a well-formed value is a well-formed container. -/
theorem Loaded.wellFormed {c d : Container} {fields : Json.Fields}
    (hkind : c.Lawful)
    (hfields : (Json.obj fields).WellFormed) (h : c.Loaded fields d) : d.WellFormed := by
  have htyped : ∀ kind, d.representation = .typed kind → c.representation = .typed kind :=
    fun kind hrep => representation_emptyLike.mp (h.representation ▸ hrep)
  have hmember : ∀ key value, d.body.get? key = some value → value.WellFormed := by
    intro key value hvalue
    have hreserved : key ∉ Container.reserved := by
      intro hmem
      rw [h.reserved key hmem] at hvalue
      contradiction
    cases hrep : c.representation with
    | generic apiVersion kind =>
      rw [h.generic apiVersion kind hrep key hreserved] at hvalue
      exact hfields.member hvalue
    | typed kind =>
      have hdecoded := h.typed kind hrep key fun heq => hreserved (heq ▸ List.mem_cons_self)
      cases hkey : Entries.get? kind.fields key with
      | none =>
        rw [hkey, hvalue] at hdecoded
        contradiction
      | some member =>
        obtain ⟨required, shape⟩ := member
        rw [hkey, hvalue] at hdecoded
        obtain ⟨found, hwhole, hdecode⟩ := Shape.exists_decode_of_decodeMember hdecoded
        exact Shape.wellFormed_of_decode ((hkind kind hrep).lawful_of_get? hkey)
          (hwhole fun found hfound => hfields.member hfound) hdecode
  refine ⟨fun kind hrep => hkind kind (htyped kind hrep), ⟨?_, ?_⟩, ?_, ?_, ?_, ?_, ?_⟩
  · exact Shape.wellFormed_of_decode Schema.lawful_metadata (wellFormed_metadataOf hfields)
      h.metadata
  · exact Shape.decode_eq_self Schema.lawful_metadata h.metadata
  · exact Json.wellFormed_obj_iff.mpr ⟨h.ascending, hmember⟩
  · exact h.reserved "metadata" (by decide)
  · exact h.reserved "apiVersion" (by decide)
  · exact h.reserved "kind" (by decide)
  · intro kind hrep key hkey
    have hdecoded := h.typed kind (htyped kind hrep) key hkey
    cases hget : Entries.get? kind.fields key with
    | none => rwa [hget] at hdecoded
    | some member =>
      obtain ⟨required, shape⟩ := member
      rw [hget] at hdecoded
      have hlawful := (hkind kind (htyped kind hrep)).lawful_of_get? hget
      exact Shape.decodeMember_eq_self hlawful hdecoded fun _ _ => Shape.decode_eq_self hlawful

/-- What is loaded from a well-formed value is a well-formed container. -/
theorem wellFormed_of_load {c d : Container} {value : Json} (hlawful : c.Lawful)
    (hvalue : value.WellFormed) (h : c.load value = .ok d) : d.WellFormed := by
  have hloaded := loaded_of_load hlawful hvalue h
  obtain ⟨fields, rfl, _⟩ := load_eq_ok_iff.mp h
  exact hloaded.wellFormed hlawful hvalue

theorem lawful_generic (gvk : Gvk) : (generic gvk).Lawful := fun _ h => nomatch h

theorem lawful_ofTyped {kind : TypedKind} (h : kind.Lawful) : (ofTyped kind).Lawful :=
  fun _ heq => Representation.typed.inj heq ▸ h

theorem Lawful.emptyLike {c : Container} (h : c.Lawful) : c.emptyLike.Lawful := by
  unfold Container.emptyLike
  split
  next kind hrep => exact lawful_ofTyped (h kind hrep)
  next => exact lawful_generic c.gvk

/-! ## Which values are accepted -/

theorem memberFits_metadata_iff {fields : Json.Fields} :
    Schema.metadata.MemberFits (fields.get? "metadata") ↔
      Schema.metadata.Fits (metadataOf fields) := by
  rw [@Shape.memberFits_iff Schema.metadata true, decodeMember_metadata]
  unfold Shape.Fits
  cases Schema.metadata.decode (metadataOf fields) with
  | error e =>
    exact iff_of_false not_exists_error_eq_ok not_exists_error_eq_ok
  | ok canonical => exact iff_of_true ⟨_, rfl⟩ ⟨_, rfl⟩

theorem contents_ok_iff {c : Container}
    (hkind : c.Lawful) {fields : Json.Fields} :
    (∃ d, c.contents fields = .ok d) ↔
      ∀ key required shape, Entries.get? c.decodedMembers key = some (required, shape) →
        shape.MemberFits (fields.get? key) := by
  unfold contents decodedMembers
  cases hrep : c.representation with
  | typed kind =>
    rw [← Shape.decodeFields_ok_iff (hkind kind hrep).ascending]
    dsimp only [loadTyped]
    cases Shape.decodeFields kind.fields fields with
    | error e =>
      exact iff_of_false not_exists_error_eq_ok not_exists_error_eq_ok
    | ok canonical => exact iff_of_true ⟨_, rfl⟩ ⟨_, rfl⟩
  | generic apiVersion kind =>
    -- A generic container decodes nothing but the metadata.
    have hmember : (∀ key required shape,
        Entries.get? [Schema.metadataMember] key = some (required, shape) →
          shape.MemberFits (fields.get? key)) ↔ Schema.metadata.Fits (metadataOf fields) := by
      rw [← memberFits_metadata_iff]
      constructor
      · intro h
        exact h "metadata" true Schema.metadata rfl
      · intro h key required shape hkey
        obtain ⟨rfl, heq⟩ := List.mem_singleton.mp (Entries.mem_of_get?_eq_some hkey) |> Prod.mk.inj
        obtain ⟨rfl, rfl⟩ := Prod.mk.inj heq
        exact h
    rw [hmember]
    dsimp only [loadGeneric, Metadata.decode]
    unfold Shape.Fits
    cases Schema.metadata.decode (metadataOf fields) with
    | error e =>
      exact iff_of_false not_exists_error_eq_ok not_exists_error_eq_ok
    | ok canonical => exact iff_of_true ⟨_, rfl⟩ ⟨_, rfl⟩

theorem memberFits_dropManagedFields {c : Container} {fields : Json.Fields}
    (hkind : c.Lawful)
    (hfields : (Json.obj fields).WellFormed) {key : String} {required : Bool} {shape : Shape}
    (hkey : Entries.get? c.decodedMembers key = some (required, shape)) :
    shape.MemberFits ((dropManagedFields fields).get? key) ↔
      shape.MemberFits (fields.get? key) := by
  by_cases hmetadata : key = "metadata"
  · subst hmetadata
    rw [get?_decodedMembers_metadata hkind] at hkey
    rw [← (Prod.mk.inj (Option.some.inj hkey)).2, memberFits_metadata_iff, memberFits_metadata_iff]
    unfold Shape.Fits
    rw [decode_metadataOf_dropManagedFields hfields]
  · rw [get?_dropManagedFields, if_neg fun heq => hmetadata heq.symm]

/-- A container loads exactly the values it accepts. -/
theorem exists_load_iff {c : Container}
    (hkind : c.Lawful) {value : Json}
    (hvalue : value.WellFormed) : (∃ d, c.load value = .ok d) ↔ c.Accepts value := by
  constructor
  · rintro ⟨d, h⟩
    obtain ⟨fields, rfl, hstates, hcontents⟩ := load_eq_ok_iff.mp h
    refine ⟨rfl, hstates, fun key required shape hkey => ?_⟩
    exact (memberFits_dropManagedFields hkind hvalue hkey).mp
      ((contents_ok_iff hkind).mp ⟨d, hcontents⟩ key required shape hkey)
  · rintro ⟨hobject, hstates, hmembers⟩
    rw [Json.eq_obj_of_isObject hobject] at hvalue
    have hcontents : ∃ d, c.contents (dropManagedFields value.fields) = .ok d :=
      (contents_ok_iff hkind).mpr fun key required shape hkey =>
        (memberFits_dropManagedFields hkind hvalue hkey).mpr (hmembers key required shape hkey)
    obtain ⟨d, hd⟩ := hcontents
    exact ⟨d, load_eq_ok_iff.mpr ⟨value.fields, Json.eq_obj_of_isObject hobject, hstates, hd⟩⟩

/-! ## Stating texts of the metadata -/

/-- The container with a text of its metadata stated. -/
def setText (c : Container) (key text : String) : Container :=
  { c with metadata := c.metadata.setText key text }

theorem WellFormed.withMetadata {c : Container} (h : c.WellFormed) {metadata : Metadata}
    (hmetadata : metadata.WellFormed) : { c with metadata }.WellFormed :=
  ⟨h.lawful, hmetadata, h.body, h.noMetadata, h.noApiVersion, h.noKind, h.members⟩

theorem WellFormed.setText {c : Container} (h : c.WellFormed) (key text : String) {required : Bool}
    {shape : Shape} (hkey : Entries.get? Schema.metadataMembers key = some (required, shape))
    (htext : shape.decode (.str text) = .ok (.str text)) : (c.setText key text).WellFormed :=
  h.withMetadata (h.metadata.setText key text hkey htext)

theorem WellFormed.setText_self {c : Container} (h : c.WellFormed) {key text : String}
    (hkey : Entries.get? Schema.metadataMembers key = some (false, .text))
    (htext : c.metadata.textAt key = text) (hne : text ≠ "") : c.setText key text = c := by
  rw [Container.setText, h.metadata.setText_self hkey htext hne]

/-- An empty generic container is well formed. -/
theorem wellFormed_generic (gvk : Gvk) : (generic gvk).WellFormed :=
  ⟨lawful_generic gvk, ⟨.nil, rfl⟩, .nil, rfl, rfl, rfl, fun _ h => nomatch h⟩

theorem WellFormed.get?_toJson_of_member {c : Container} (h : c.WellFormed) {kind : TypedKind}
    (hkind : c.representation = .typed kind) {key : String} {member : Bool × Shape}
    (hkey : Entries.get? kind.fields key = some member) (hne : key ≠ "metadata") :
    c.toJson.get? key = c.body.get? key := by
  have hlawful := h.lawful kind hkind
  rw [get?_toJson, if_neg hne.symm, if_neg, if_neg]
  · rintro rfl
    rw [hlawful.noApiVersion] at hkey
    contradiction
  · rintro rfl
    rw [hlawful.noKind] at hkey
    contradiction

/-- A well-formed container accepts what another one of the same kind and representation
prints, if its kind is read back. -/
theorem accepts_toJson {c d : Container} (hd : d.WellFormed) (hcoherent : c.Coherent)
    (hrep : d.representation = c.representation) : c.Accepts d.toJson := by
  have hstated : d.statedKind = (c.gvk.apiVersion, c.gvk.kind) := by
    rw [statedKind_eq_of_representation hrep, ← hcoherent, ← snd_statedKind]
  have hstates : ∀ (key text : String), d.toJson.get? key = some (.str text) →
      (stated? d.toJson.fields key).getD text = text := fun key text hget =>
    getD_stated?_iff.mpr fun other hother _ =>
      (Json.str.inj (Option.some.inj (hget.symm.trans hother))).symm
  refine ⟨rfl, ⟨hstates "apiVersion" _ ?_, hstates "kind" _ ?_⟩, ?_⟩
  · rw [get?_toJson, hstated]
    rfl
  · rw [get?_toJson, hstated]
    rfl
  · intro key required shape hkey
    by_cases hmetadata : key = "metadata"
    · subst hmetadata
      have hlawful : c.Lawful := fun kind hkind => hd.lawful kind (hrep.trans hkind)
      rw [get?_decodedMembers_metadata hlawful] at hkey
      rw [get?_toJson, if_pos rfl, ← (Prod.mk.inj (Option.some.inj hkey)).2]
      exact Shape.Fits.memberFits ⟨_, hd.metadata.canonical⟩
    · obtain ⟨kind, hkind, hmember⟩ := typed_of_decodedMembers hkey hmetadata
      have hdecoded := hd.members kind (hrep.trans hkind) key hmetadata
      rw [hmember] at hdecoded
      rw [hd.get?_toJson_of_member (hrep.trans hkind) hmember hmetadata]
      exact Shape.memberFits_iff.mpr ⟨_, hdecoded⟩

end Container

end ClusterObjects
