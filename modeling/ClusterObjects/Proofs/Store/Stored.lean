import ClusterObjects.Proofs.Object.Container
import ClusterObjects.Store.Memory

/-! # Stored values

Every value that a store keeps under a key is an object with metadata of its
kind, and it states the key itself: its kind, its namespace and its name. The
value that a write submits is such an object (`Draft`); the store gives it an
identifier, a creation time and a version (`seal`), and what results belongs to
the key (`Belongs`).
-/

namespace ClusterObjects

theorem Store.keyOf_eq_ok_iff {object : Container} {key : Key} :
    Store.keyOf object = .ok key ↔ object.name ≠ "" ∧ Key.ofContainer object = key := by
  unfold Store.keyOf
  split
  next hempty =>
    have hname := String.isEmpty_iff.mp hempty
    exact ⟨nofun, fun h => absurd hname h.1⟩
  next hname =>
    refine ⟨fun h => ⟨fun heq => hname (String.isEmpty_iff.mpr heq), Except.ok.inj h⟩, ?_⟩
    rintro ⟨_, rfl⟩
    rfl

/-- A container that states an identifier, a creation time and a version. -/
def Container.sealed (c : Container) (uid created version : String) : Container :=
  ((c.setText "uid" uid).setText "creationTimestamp" created).setText "resourceVersion" version

namespace Stored

/-- An object that states the kind, the namespace and the name of a key. -/
structure Draft (key : Key) (value : Json) : Prop where
  whole : value.WellFormed
  metadata : ∃ members, value.get? "metadata" = some (.obj members) ∧
    Schema.metadata.Fits (.obj members)
  named : key.name ≠ ""
  name : metadata? value "name" = some (.str key.name)
  namespaceName : ((metadata? value "namespace").bind Json.text?).getD "" = key.namespaceName
  kind : ∃ apiVersion, value.get? "apiVersion" = some (.str apiVersion) ∧
    value.get? "kind" = some (.str key.gvk.kind) ∧
    Gvk.ofApiVersion apiVersion key.gvk.kind = key.gvk

theorem Draft.isObject {key : Key} {value : Json} (h : Draft key value) :
    value.isObject = true := by
  obtain ⟨_, hmembers, _⟩ := h.metadata
  cases value with
  | obj => rfl
  | _ => contradiction

/-- A text that the store writes for a creation time. -/
def CreationText (text : String) : Prop := Shape.time.decode (.str text) = .ok (.str text)

/-- A value that a store may keep under a key. -/
structure Belongs (key : Key) (value : Json) : Prop extends Draft key value where
  uid : ∃ text, metadata? value "uid" = some (.str text)
  created : ∃ text, metadata? value "creationTimestamp" = some (.str text) ∧ CreationText text

/-- A value with an identifier, a creation time and a version. -/
def sealed (uid created version : String) (value : Json) : Json :=
  setMetadata "resourceVersion" (.str version)
    (setMetadata "creationTimestamp" (.str created) (setMetadata "uid" (.str uid) value))

/-! ## Stating metadata members -/

theorem setMetadata_eq {value : Json} {members : Json.Fields}
    (h : value.get? "metadata" = some (.obj members)) (field : String) (member : Json) :
    setMetadata field member value =
      .obj (value.fields.insert "metadata" (.obj (members.insert field member))) := by
  cases value with
  | obj fields =>
    have hfound : Entries.get? fields "metadata" = some (.obj members) := h
    simp only [setMetadata, hfound]
    rfl
  | _ => contradiction

theorem get?_setMetadata {value : Json} {members : Json.Fields}
    (h : value.get? "metadata" = some (.obj members)) (field : String) (member : Json)
    (key : String) :
    (setMetadata field member value).get? key =
      if "metadata" = key then some (.obj (members.insert field member)) else value.get? key := by
  rw [setMetadata_eq h, Json.get?, Json.fields, Entries.get?_insert]
  rfl

theorem metadata?_eq {value : Json} {members : Json.Fields}
    (h : value.get? "metadata" = some (.obj members)) (field : String) :
    metadata? value field = members.get? field := by
  rw [metadata?, h]
  rfl

theorem metadata?_setMetadata_of_obj {value : Json} {members : Json.Fields}
    (h : value.get? "metadata" = some (.obj members)) (field other : String) (member : Json) :
    metadata? (setMetadata field member value) other =
      if field = other then some member else metadata? value other := by
  rw [metadata?, get?_setMetadata h, if_pos rfl, metadata?_eq h]
  exact Entries.get?_insert members field other member

theorem wellFormed_setMetadata {value member : Json} {members : Json.Fields}
    (h : value.get? "metadata" = some (.obj members)) (hvalue : value.WellFormed)
    (hmember : member.WellFormed) (field : String) :
    (setMetadata field member value).WellFormed := by
  have hobject : value = .obj value.fields := by
    cases value with
    | obj fields => rfl
    | _ => contradiction
  have hwhole : (Json.obj members).WellFormed := hvalue.get? h
  rw [setMetadata_eq h]
  exact Json.WellFormed.insert (hobject ▸ hvalue) (hwhole.insert hmember)

/-- A member that the shape of metadata takes can be stated. -/
theorem fits_insert {members : Json.Fields} {field : String} {required : Bool} {shape : Shape}
    {member : Json} (hfits : Schema.metadata.Fits (.obj members))
    (hfield : Entries.get? Schema.metadataMembers field = some (required, shape))
    (hmember : shape.Fits member) :
    Schema.metadata.Fits (.obj (members.insert field member)) := by
  rw [Schema.metadata_eq, Shape.fits_record_iff Schema.ascending_metadataMembers] at hfits ⊢
  intro key required shape hkey
  rw [Entries.get?_insert]
  split
  next heq =>
    subst heq
    rw [hfield] at hkey
    obtain ⟨_, rfl⟩ := Prod.mk.inj (Option.some.inj hkey)
    exact hmember.memberFits
  next => exact hfits key required shape hkey

/-- Stating a member that is neither name nor namespace keeps a draft one. -/
theorem Draft.setMetadata {key : Key} {value : Json} (h : Draft key value) (field text : String)
    {required : Bool} {shape : Shape}
    (hfield : Entries.get? Schema.metadataMembers field = some (required, shape))
    (htext : shape.Fits (.str text)) (hname : field ≠ "name") (hnamespace : field ≠ "namespace") :
    Draft key (setMetadata field (.str text) value) := by
  obtain ⟨members, hmembers, hfits⟩ := h.metadata
  have hother : ∀ other, other ≠ "metadata" →
      (Stored.setMetadata field (.str text) value).get? other = value.get? other := by
    intro other hne
    rw [get?_setMetadata hmembers, if_neg hne.symm]
  refine ⟨wellFormed_setMetadata hmembers h.whole (.str text) field, ?_, h.named, ?_, ?_, ?_⟩
  · refine ⟨Entries.insert members field (.str text), ?_, fits_insert hfits hfield htext⟩
    rw [get?_setMetadata hmembers, if_pos rfl]
  · rw [metadata?_setMetadata_of_obj hmembers, if_neg hname, h.name]
  · rw [metadata?_setMetadata_of_obj hmembers, if_neg hnamespace, h.namespaceName]
  · rw [hother _ (by decide), hother _ (by decide)]
    exact h.kind

theorem Draft.metadata?_setMetadata {key : Key} {value : Json} (h : Draft key value)
    (field other : String) (member : Json) :
    metadata? (Stored.setMetadata field member value) other =
      if field = other then some member else metadata? value other := by
  obtain ⟨_, hmembers, _⟩ := h.metadata
  exact metadata?_setMetadata_of_obj hmembers field other member

theorem fits_text (text : String) : Shape.text.Fits (.str text) := ⟨.str text, rfl⟩

/-- A sealed draft states the identifier and the creation time that it was sealed with. -/
theorem Draft.metadata?_stamped {key : Key} {value : Json} (h : Draft key value)
    (uid version : String) {created : String} (hcreated : CreationText created) :
    metadata? (Stored.sealed uid created version value) "uid" = some (.str uid) ∧
      metadata? (Stored.sealed uid created version value) "creationTimestamp" =
        some (.str created) := by
  have hfits : Shape.time.Fits (.str created) := ⟨_, hcreated⟩
  have huid := h.setMetadata "uid" uid rfl (fits_text uid) (by decide) (by decide)
  have hcreation :=
    huid.setMetadata "creationTimestamp" created rfl hfits (by decide) (by decide)
  constructor
  · rw [Stored.sealed, hcreation.metadata?_setMetadata, if_neg (by decide),
      huid.metadata?_setMetadata, if_neg (by decide), h.metadata?_setMetadata, if_pos rfl]
  · rw [Stored.sealed, hcreation.metadata?_setMetadata, if_neg (by decide),
      huid.metadata?_setMetadata, if_pos rfl]

/-- A draft with an identifier, a creation time and a version belongs to its key, and the
version is the one it was sealed with. -/
theorem Draft.sealed {key : Key} {value : Json} (h : Draft key value) (uid version : String)
    {created : String} (hcreated : CreationText created) :
    Belongs key (sealed uid created version value) ∧
      metadata? (Stored.sealed uid created version value) "resourceVersion" =
        some (.str version) := by
  have hfits : Shape.time.Fits (.str created) := ⟨_, hcreated⟩
  have huid := h.setMetadata "uid" uid rfl (fits_text uid) (by decide) (by decide)
  have hcreation :=
    huid.setMetadata "creationTimestamp" created rfl hfits (by decide) (by decide)
  have hversion :=
    hcreation.setMetadata "resourceVersion" version rfl (fits_text version) (by decide) (by decide)
  obtain ⟨hstated, hcreatedStated⟩ := h.metadata?_stamped uid version hcreated
  exact ⟨⟨hversion, ⟨uid, hstated⟩, created, hcreatedStated, hcreated⟩,
    (hcreation.metadata?_setMetadata _ _ _).trans (if_pos rfl)⟩

/-! ## Drafts -/

theorem metadata?_toJson (object : Container) (field : String) :
    metadata? object.toJson field = object.metadata.fields.get? field :=
  metadata?_eq (object.get?_toJson "metadata") field

/-- What a well-formed container prints is a draft for its key. -/
theorem draft_toJson {object : Container} {key : Key} (hobject : object.WellFormed)
    (hkey : Store.keyOf object = .ok key) : Draft key object.toJson := by
  obtain ⟨hname, rfl⟩ := Store.keyOf_eq_ok_iff.mp hkey
  refine ⟨hobject.toJson, ⟨_, object.get?_toJson "metadata", _, hobject.metadata.canonical⟩, hname,
    ?_, ?_, object.statedKind.1, object.get?_toJson "apiVersion", ?_, ?_⟩
  · rw [metadata?_toJson]
    change ((object.metadata.fields.get? "name").bind Json.text?).getD "" ≠ "" at hname
    change _ = some (Json.str (((object.metadata.fields.get? "name").bind Json.text?).getD ""))
    cases hfound : object.metadata.fields.get? "name" with
    | none => rw [hfound] at hname; exact absurd rfl hname
    | some value =>
      obtain ⟨text, rfl⟩ := hobject.metadata.eq_str rfl hfound
      rfl
  · rw [metadata?_toJson]
    rfl
  · rw [object.get?_toJson, object.snd_statedKind]
    rfl
  · change Gvk.ofApiVersion object.statedKind.1 object.gvk.kind = object.gvk
    rw [← object.snd_statedKind]
    unfold Container.statedKind Container.gvk
    cases hrep : object.representation with
    | typed kind => exact (hobject.lawful kind hrep).identity
    | generic apiVersion kind => rfl

/-- What a patch makes of the metadata: it stays, or is patched member by member. -/
theorem metadata_applyPatch_diff {stored : Json} {members : Json.Fields} {base object : Container}
    (hstored : stored.WellFormed) (hmembers : stored.get? "metadata" = some (.obj members))
    (hbase : base.WellFormed) (hobject : object.WellFormed)
    (hfits : Schema.metadata.Fits (.obj members)) :
    ∃ result : Json.Fields,
      (stored.applyPatch (Store.patchDocument base object)).get? "metadata" =
        some (.obj result) ∧ Schema.metadata.Fits (.obj result) ∧
      (result = members ∨ ∀ field, result.get? field =
        Json.merged (members.get? field) (base.metadata.fields.get? field)
          (object.metadata.fields.get? field)) := by
  have hwhole := hobject.toJson
  have hnew : object.metadata.toJson ≠ .null := nofun
  unfold Store.patchDocument
  rw [object.toJson_eq] at hwhole ⊢
  rw [Json.get?_applyPatch_diff hstored hbase.toJson hwhole, hmembers, base.get?_toJson, if_pos rfl,
    Entries.get?_insert, if_pos rfl]
  rcases @Json.merged_some (some base.metadata.toJson) _ hnew (some (.obj members))
    with ⟨heq, _⟩ | heq
  · exact ⟨members, heq, hfits, Or.inl rfl⟩
  · have hmembersWhole : (Json.obj members).WellFormed := hstored.get? hmembers
    have hmerged := Shape.keepsMerged Schema.lawful_metadata _ _ _ hmembersWhole
      hbase.metadata.whole hobject.metadata.whole (Or.inr hfits) hobject.metadata.canonical
    rw [heq, Option.getD_some, Option.getD_some]
    rw [Metadata.toJson, Metadata.toJson, Json.applyPatch_diff_eq_obj] at hmerged ⊢
    refine ⟨_, rfl, hmerged, Or.inr fun field => ?_⟩
    exact Json.get?_applyPatch_diff hmembersWhole hbase.metadata.whole hobject.metadata.whole field

/-- What a patch makes of a value that belongs to the key of the patched object is a draft for
that key. -/
theorem draft_applyPatch {stored : Json} {key : Key} {base object : Container}
    (hstored : Belongs key stored) (hbase : base.WellFormed) (hobject : object.WellFormed)
    (hkey : Store.keyOf object = .ok key) :
    Draft key (stored.applyPatch (Store.patchDocument base object)) := by
  have hdraft := draft_toJson hobject hkey
  obtain ⟨members, hmembers, hfits⟩ := hstored.metadata
  obtain ⟨result, hresult, hresultFits, hcases⟩ :=
    metadata_applyPatch_diff hstored.whole hmembers hbase hobject hfits
  have hwhole := hobject.toJson
  have hget : ∀ other, (stored.applyPatch (Store.patchDocument base object)).get? other =
      Json.merged (stored.get? other) (base.toJson.get? other) (object.toJson.get? other) :=
    fun other => Json.get?_applyPatch_diff hstored.whole hbase.toJson hwhole other
  have hname := hstored.name
  have hnamespace := hstored.namespaceName
  have hnewName := hdraft.name
  have hnewNamespace := hdraft.namespaceName
  rw [metadata?_eq hmembers] at hname hnamespace
  rw [metadata?_toJson] at hnewName hnewNamespace
  -- Name, namespace and kind are each kept or replaced by those of the object, and either way
  -- they are those of the key.
  refine ⟨hstored.whole.applyPatch (hbase.toJson.diff hobject.toJson),
    ⟨result, hresult, hresultFits⟩, hdraft.named, ?_, ?_, ?_⟩
  · rw [metadata?_eq hresult]
    rcases hcases with rfl | hfield
    · exact hname
    · rw [hfield, hname, hnewName]
      rcases Json.merged_str (some (.str key.name)) (base.metadata.fields.get? "name") key.name
        with heq | heq
      · exact heq
      · exact heq
  · rw [metadata?_eq hresult]
    rcases hcases with rfl | hfield
    · exact hnamespace
    · rw [hfield]
      cases hfound : object.metadata.fields.get? "namespace" with
      | none =>
        rw [hfound] at hnewNamespace
        cases hbaseFound : base.metadata.fields.get? "namespace" with
        | none => exact hnamespace
        | some value => exact hnewNamespace
      | some value =>
        obtain ⟨text, rfl⟩ := hobject.metadata.eq_str rfl hfound
        rw [hfound] at hnewNamespace
        rcases Json.merged_str (Entries.get? members "namespace")
          (base.metadata.fields.get? "namespace") text with heq | heq
        · rw [heq]; exact hnamespace
        · rw [heq]; exact hnewNamespace
  · obtain ⟨old, hold, holdKind, holdIdentity⟩ := hstored.kind
    obtain ⟨new, hnew, hnewKind, hnewIdentity⟩ := hdraft.kind
    have hkind : (stored.applyPatch (Store.patchDocument base object)).get? "kind" =
        some (.str key.gvk.kind) := by
      rw [hget, holdKind, hnewKind]
      rcases Json.merged_str (some (.str key.gvk.kind)) (base.toJson.get? "kind") key.gvk.kind
        with heq | heq
      · exact heq
      · exact heq
    rcases Json.merged_str (some (.str old)) (base.toJson.get? "apiVersion") new with heq | heq
    · exact ⟨old, by rw [hget, hold, hnew, heq], hkind, holdIdentity⟩
    · exact ⟨new, by rw [hget, hold, hnew, heq], hkind, hnewIdentity⟩

/-! ## Sealing -/

/-- A member that is stated again stays as it is. -/
theorem setMetadata_self {value member : Json} {members : Json.Fields} {field : String}
    (hvalue : value.WellFormed) (hmembers : value.get? "metadata" = some (.obj members))
    (hmember : metadata? value field = some member) : setMetadata field member value = value := by
  rw [metadata?_eq hmembers] at hmember
  have hwhole : (Json.obj members).WellFormed := hvalue.get? hmembers
  rw [setMetadata_eq hmembers, Entries.insert_eq_self hwhole.ascending hmember,
    Entries.insert_eq_self hvalue.ascending_fields hmembers]
  cases value with
  | obj fields => rfl
  | _ => contradiction

theorem setMetadata_toJson {object : Container} (hobject : object.WellFormed)
    (field text : String) :
    setMetadata field (.str text) object.toJson = (object.setText field text).toJson := by
  rw [setMetadata_eq (object.get?_toJson "metadata"), object.toJson_eq, Json.fields]
  refine congrArg Json.obj (Entries.insert_insert ?_ _ _ _)
  exact (hobject.body.ascending.insert _ _).insert _ _

/-- A sealed object is what the container prints that states the same three texts. -/
theorem sealed_toJson {object : Container} (hobject : object.WellFormed)
    (uid version : String) {created : String} (hcreated : CreationText created) :
    sealed uid created version object.toJson = (object.sealed uid created version).toJson := by
  have huid := hobject.setText "uid" uid rfl rfl
  have hcreation := huid.setText "creationTimestamp" created rfl hcreated
  rw [sealed, setMetadata_toJson hobject, setMetadata_toJson huid, setMetadata_toJson hcreation]
  rfl

theorem wellFormed_sealed {object : Container} (hobject : object.WellFormed)
    (uid version : String) {created : String} (hcreated : CreationText created) :
    (object.sealed uid created version).WellFormed :=
  ((hobject.setText "uid" uid rfl rfl).setText "creationTimestamp" created rfl hcreated).setText
    "resourceVersion" version rfl rfl

/-- The server's members of a stored value, taken over by another, seal it. -/
theorem exists_keepServerFields {key : Key} {stored : Json} (h : Belongs key stored) :
    ∃ uid created, metadata? stored "uid" = some (.str uid) ∧
      metadata? stored "creationTimestamp" = some (.str created) ∧ CreationText created ∧
      ∀ (store : Store) (value : Json), store.setVersion (keepServerFields stored value) =
        sealed uid created store.nextVersion value := by
  obtain ⟨uid, huid⟩ := h.uid
  obtain ⟨created, hcreated, htext⟩ := h.created
  refine ⟨uid, created, huid, hcreated, htext, fun store value => ?_⟩
  simp only [keepServerFields, serverFields, List.foldl_cons, List.foldl_nil, keepField, huid,
    hcreated]
  rfl

theorem eq_str_of_text? {value : Json} {field : String}
    (h : (text? value field).isSome = true) : ∃ text, metadata? value field = some (.str text) := by
  unfold text? at h
  cases hfound : metadata? value field with
  | none => rw [hfound] at h; contradiction
  | some member =>
    cases member with
    | str text => exact ⟨text, rfl⟩
    | _ => rw [hfound] at h; contradiction

/-- A stamp seals a draft that may state its own identifier and creation time. -/
theorem exists_stampNew {store : Store} (hstamps : ∀ n, (store.stamps n).now.Valid) {key : Key}
    {value : Json} (h : Draft key value)
    (hcreated : ∀ text, metadata? value "creationTimestamp" = some (.str text) →
      CreationText text) :
    ∃ uid created, CreationText created ∧
      store.setVersion (store.stampNew value) = sealed uid created store.nextVersion value := by
  have huid : ∃ uid, (if (text? value "uid").isSome then value
      else setMetadata "uid" (.str (store.stamps (store.revision + 1)).uid) value) =
        setMetadata "uid" (.str uid) value := by
    split
    next hsome =>
      obtain ⟨uid, hfound⟩ := eq_str_of_text? hsome
      obtain ⟨_, hmembers, _⟩ := h.metadata
      exact ⟨uid, (setMetadata_self h.whole hmembers hfound).symm⟩
    next => exact ⟨_, rfl⟩
  obtain ⟨uid, huid⟩ := huid
  have hdraft := h.setMetadata "uid" uid rfl (fits_text uid) (by decide) (by decide)
  have hcreation : metadata? (setMetadata "uid" (.str uid) value) "creationTimestamp" =
      metadata? value "creationTimestamp" :=
    (h.metadata?_setMetadata _ _ _).trans (if_neg (by decide))
  have hstamp : CreationText (Rfc3339.write (store.stamps (store.revision + 1)).now) := by
    unfold CreationText
    simp only [Shape.decode, Shape.decodeTime, Rfc3339.read_write (hstamps _),
      Rfc3339.write_truncate]
  simp only [Store.stampNew, huid]
  split
  next hsome =>
    obtain ⟨created, hfound⟩ := eq_str_of_text? hsome
    obtain ⟨_, hmembers, _⟩ := hdraft.metadata
    refine ⟨uid, created, hcreated created (hcreation ▸ hfound), ?_⟩
    unfold sealed
    rw [setMetadata_self hdraft.whole hmembers hfound]
    rfl
  next => exact ⟨uid, _, hstamp, rfl⟩

end Stored

end ClusterObjects
