import ClusterObjects.Proofs.Store.ReadBack
import ClusterObjects.Proofs.Store.ServerFields

/-! # How objects are represented in a store

Beyond what makes it sound, a store that writes lead to from a fresh one keeps three things:
a namespace is a text wherever it is stated, no identifier is empty, and the numbers of the
writes start at one. Together they say what each stored value states about its key, and that
its version is its own.
-/

namespace ClusterObjects

namespace Stored

/-- A namespace is a text where it is stated. -/
def NamespaceText (value : Json) : Prop :=
  ∀ member, metadata? value "namespace" = some member → ∃ text, member = .str text

theorem namespaceText_toJson {object : Container} (hobject : object.WellFormed) :
    NamespaceText object.toJson := by
  intro member hmember
  rw [metadata?_toJson] at hmember
  exact hobject.metadata.eq_str rfl hmember

theorem namespaceText_sealed {key : Key} {value : Json} (h : Draft key value) (uid version : String)
    {created : String} (hcreated : CreationText created) (hvalue : NamespaceText value) :
    NamespaceText (sealed uid created version value) := by
  unfold NamespaceText
  rw [metadata?_sealed h uid version hcreated (by decide)]
  exact hvalue

/-- The patch to an object leaves a namespace as it was, takes the one of the object or removes
it; it never leaves a null. -/
theorem namespaceText_applyPatch {stored : Json} {key : Key} {base object : Container}
    (hstored : Belongs key stored) (hbase : base.WellFormed) (hobject : object.WellFormed)
    (hvalue : NamespaceText stored) :
    NamespaceText (stored.applyPatch (Store.patchDocument base object)) := by
  obtain ⟨members, hmembers, hfits⟩ := hstored.metadata
  obtain ⟨result, hresult, _, hcases⟩ :=
    metadata_applyPatch_diff hstored.whole hmembers hbase hobject hfits
  intro member hmember
  rw [metadata?_eq hresult] at hmember
  rcases hcases with rfl | hfield
  · exact hvalue member ((metadata?_eq hmembers _).trans hmember)
  · rw [hfield] at hmember
    cases hfound : object.metadata.fields.get? "namespace" with
    | none =>
      rw [hfound, Json.merged] at hmember
      split at hmember
      · contradiction
      · exact hvalue member ((metadata?_eq hmembers _).trans hmember)
    | some stated =>
      obtain ⟨text, rfl⟩ := hobject.metadata.eq_str rfl hfound
      rw [hfound] at hmember
      rcases Json.merged_str (Entries.get? members "namespace")
        (base.metadata.fields.get? "namespace") text with heq | heq
      · exact hvalue member ((metadata?_eq hmembers _).trans (heq.symm.trans hmember))
      · exact ⟨text, (Option.some.inj (heq.symm.trans hmember)).symm⟩

/-- A text of the metadata that counts as stated is not empty. -/
theorem exists_of_text? {value : Json} {field : String} (h : (text? value field).isSome = true) :
    ∃ text, text ≠ "" ∧ metadata? value field = some (.str text) := by
  obtain ⟨text, hfound⟩ := eq_str_of_text? h
  refine ⟨text, ?_, hfound⟩
  rintro rfl
  rw [text?, hfound] at h
  contradiction

/-- A stamped draft has an identifier that is not empty, its own or the one of the stamp. -/
theorem Draft.exists_uid_stampNew {key : Key} {value : Json} (h : Draft key value) {store : Store}
    (hstamps : ∀ n, (store.stamps n).uid ≠ "") :
    ∃ uid, uid ≠ "" ∧
      metadata? (store.setVersion (store.stampNew value)) "uid" = some (.str uid) := by
  -- The identifier is stated before the creation time and the version, which leave it alone.
  obtain ⟨identified, heq, hdraft, uid, hne, huid⟩ : ∃ identified,
      identified = (if (text? value "uid").isSome then value
        else Stored.setMetadata "uid" (.str (store.stamps (store.revision + 1)).uid) value) ∧
      Draft key identified ∧ ∃ uid, uid ≠ "" ∧ metadata? identified "uid" = some (.str uid) := by
    refine ⟨_, rfl, ?_⟩
    split
    next hstated => exact ⟨h, exists_of_text? hstated⟩
    next =>
      have hset := h.setMetadata "uid" (store.stamps (store.revision + 1)).uid rfl (fits_text _)
        (by decide) (by decide)
      exact ⟨hset, _, hstamps _, (h.metadata?_setMetadata _ _ _).trans (if_pos rfl)⟩
  obtain ⟨members, hmembers, _⟩ := hdraft.metadata
  refine ⟨uid, hne, ?_⟩
  simp only [Store.stampNew, Store.setVersion, ← heq]
  split
  · rw [hdraft.metadata?_setMetadata, if_neg (by decide), huid]
  · rw [metadata?_setMetadata_of_obj ((get?_setMetadata hmembers _ _ _).trans (if_pos rfl)),
      if_neg (by decide), hdraft.metadata?_setMetadata, if_neg (by decide), huid]

/-- What the values of a run state beyond what belongs to their keys. -/
structure Exact (value : Json) : Prop where
  namespaceText : NamespaceText value
  uid : ∃ uid, uid ≠ "" ∧ metadata? value "uid" = some (.str uid)
  positive : ∃ n, Store.HasVersion value (n + 1)

end Stored

namespace Store

/-- What a value stored under a key states, and which version it has. -/
structure Represents (store : Store) (key : Key) (value : Json) : Prop where
  mapping : value.isObject = true
  /-- The name is that of the key, which has one. -/
  named : key.name ≠ ""
  name : Stored.metadata? value "name" = some (.str key.name)
  /-- The namespace is that of the key; if this is empty, it may be left out. -/
  namespaceName : Stored.metadata? value "namespace" = some (.str key.namespaceName) ∨
    key.namespaceName = "" ∧ Stored.metadata? value "namespace" = none
  kind : ∃ apiVersion kind, value.get? "apiVersion" = some (.str apiVersion) ∧
    value.get? "kind" = some (.str kind) ∧ Gvk.ofApiVersion apiVersion kind = key.gvk
  uid : ∃ uid, uid ≠ "" ∧ Stored.metadata? value "uid" = some (.str uid)
  created : ∃ created, created ≠ "" ∧
    Stored.metadata? value "creationTimestamp" = some (.str created)
  /-- The version is the number of a write, and no other value has it. -/
  version : ∃ n, 1 ≤ n ∧ n ≤ store.revision ∧ HasVersion value n ∧
    ∀ other found, store.items.get? other = some found → HasVersion found n → other = key

/-- What a sound store keeps besides. -/
structure Exact (store : Store) : Prop extends Sound store where
  identified : ∀ n, (store.stamps n).uid ≠ ""
  exact : ∀ key value, store.items.get? key = some value → Stored.Exact value

theorem stamps_write (store : Store) (write : Write) :
    (store.write write).store.stamps = store.stamps := by
  rw [write_eq]
  cases store.admitWrite write with
  | error e => rfl
  | ok change =>
    change (store.commit change).stamps = store.stamps
    unfold Store.commit
    split <;> rfl

theorem Fresh.exact {store : Store} (h : store.Fresh)
    (hidentified : ∀ n, (store.stamps n).uid ≠ "") : store.Exact :=
  ⟨h.sound, hidentified, fun key value hvalue => absurd hvalue (h.get?_items key value)⟩

/-- The value that a write stores states its namespace as a text. -/
theorem Exact.namespaceText_of_admitted {store : Store} (h : store.Exact) {write : Write}
    (hwrite : write.WellFormed) {change : Change} (hadmits : store.admitWrite write = .ok change)
    (htype : change.type ≠ .deleted) : Stored.NamespaceText change.value := by
  have hkey := keyOf_of_admitWrite hadmits
  cases write with
  | create object =>
    obtain ⟨_, uid, created, hcreated, heq⟩ := h.seals_create hwrite hadmits
    rw [heq]
    exact Stored.namespaceText_sealed (Stored.draft_toJson hwrite hkey) uid _ hcreated
      (Stored.namespaceText_toJson hwrite)
  | update object =>
    obtain ⟨_, uid, created, hcreated, heq⟩ := h.seals_update hadmits
    rw [heq]
    exact Stored.namespaceText_sealed (Stored.draft_toJson hwrite hkey) uid _ hcreated
      (Stored.namespaceText_toJson hwrite)
  | patch base object =>
    obtain ⟨_, stored, hstored, uid, created, hcreated, heq⟩ := h.seals_patch hadmits
    have hbelongs := h.belongs change.key stored hstored
    rw [heq]
    exact Stored.namespaceText_sealed
      (Stored.draft_applyPatch hbelongs hwrite.1 hwrite.2 hkey) uid _ hcreated
      (Stored.namespaceText_applyPatch hbelongs hwrite.1 hwrite.2
        (h.exact change.key stored hstored).namespaceText)
  | delete object => exact absurd (type_of_admitDelete hadmits) htype

/-- The value that a write stores has an identifier that is not empty: a creation sees to it,
and a change takes over the one that is there. -/
theorem Exact.exists_uid_of_admitted {store : Store} (h : store.Exact) {write : Write}
    (hwrite : write.WellFormed) {change : Change} (hadmits : store.admitWrite write = .ok change)
    (htype : change.type ≠ .deleted) :
    ∃ uid, uid ≠ "" ∧ Stored.metadata? change.value "uid" = some (.str uid) := by
  have hkey := keyOf_of_admitWrite hadmits
  have hreplaced : ∀ stored, store.items.get? change.key = some stored →
      ∃ uid, uid ≠ "" ∧ Stored.metadata? change.value "uid" = some (.str uid) := by
    intro stored hstored
    obtain ⟨uid, hne, huid⟩ := (h.exact change.key stored hstored).uid
    obtain ⟨same, hsame, hnew⟩ := (h.replaces_of_admitted hwrite hadmits htype hstored).uid
    obtain rfl := Json.str.inj (Option.some.inj (huid.symm.trans hsame))
    exact ⟨uid, hne, hnew⟩
  cases hstored : store.items.get? change.key with
  | some stored => exact hreplaced stored hstored
  | none =>
    cases write with
    | create object =>
      obtain ⟨key, _, _, rfl⟩ := admitCreate_eq_ok hadmits
      exact (Stored.draft_toJson hwrite hkey).exists_uid_stampNew h.identified
    | update object =>
      obtain ⟨key, stored, _, hfound, _, rfl⟩ := admitUpdate_eq_ok hadmits
      exact hreplaced stored hfound
    | patch base object =>
      obtain ⟨key, stored, _, hfound, _, rfl⟩ := admitPatch_eq_ok hadmits
      exact hreplaced stored hfound
    | delete object => exact absurd (type_of_admitDelete hadmits) htype

/-- A write keeps what a sound store keeps besides. -/
theorem Exact.write {store : Store} (h : store.Exact) {write : Write} (hwrite : write.WellFormed) :
    (store.write write).store.Exact := by
  refine ⟨h.toSound.write hwrite, ?_, ?_⟩
  · rw [stamps_write]
    exact h.identified
  · refine h.forall_items_write h.exact fun change hadmits htype => ?_
    have hversion : HasVersion change.value (store.revision + 1) := by
      rcases h.admitted hwrite hadmits with ⟨hdeleted, _⟩ | ⟨_, _, hversion⟩
      · exact absurd hdeleted htype
      · exact hversion
    exact ⟨h.namespaceText_of_admitted hwrite hadmits htype,
      h.exists_uid_of_admitted hwrite hadmits htype, store.revision, hversion⟩

theorem Exact.after {store : Store} (h : store.Exact) {writes : List Write}
    (hwrites : ∀ write ∈ writes, write.WellFormed) : (store.after writes).Exact := by
  induction writes generalizing store with
  | nil => exact h
  | cons write rest ih =>
    obtain ⟨hwrite, hrest⟩ := List.forall_mem_cons.mp hwrites
    exact ih (h.write hwrite) hrest

theorem created_ne_empty {created : String} (h : Stored.CreationText created) : created ≠ "" := by
  rintro rfl
  have hempty : (Shape.time.decode (.str "")).isOk = false := by decide +kernel
  rw [h] at hempty
  contradiction

/-- What is stored in such a store represents an object of its key. -/
theorem Exact.represents {store : Store} (h : store.Exact) {key : Key} {value : Json}
    (hvalue : store.items.get? key = some value) : store.Represents key value := by
  have hbelongs := h.belongs key value hvalue
  have hexact := h.exact key value hvalue
  refine ⟨hbelongs.isObject, hbelongs.named, hbelongs.name, ?_, ?_, hexact.uid, ?_, ?_⟩
  · have hnamespace := hbelongs.namespaceName
    cases hfound : Stored.metadata? value "namespace" with
    | none =>
      rw [hfound] at hnamespace
      exact Or.inr ⟨hnamespace.symm, rfl⟩
    | some member =>
      obtain ⟨text, rfl⟩ := hexact.namespaceText member hfound
      rw [hfound] at hnamespace
      exact Or.inl (congrArg (some ∘ Json.str) hnamespace)
  · obtain ⟨apiVersion, hversion, hkind, hidentity⟩ := hbelongs.kind
    exact ⟨apiVersion, key.gvk.kind, hversion, hkind, hidentity⟩
  · obtain ⟨created, hcreated, htext⟩ := hbelongs.created
    exact ⟨created, created_ne_empty htext, hcreated⟩
  · obtain ⟨n, hn, hversion⟩ := h.version key value hvalue
    obtain ⟨m, hpositive⟩ := hexact.positive
    obtain rfl := Stored.eq_of_hasVersion hversion hpositive
    refine ⟨m + 1, Nat.succ_pos m, hn, hversion, fun other found hfound hsame => ?_⟩
    refine h.unique other key found value hfound hvalue ?_
    rw [versionOf_of_hasVersion hsame, versionOf_of_hasVersion hversion]

/-- In every state that writes lead to from a fresh store, every value is an object that states
the name, the namespace and the kind of the key it is stored under; it has an identifier and a
creation time that are not empty, and its version is the number of a write so far, which no
other value has. -/
theorem represents_after {start : Store} (hstart : start.Fresh)
    (hidentified : ∀ n, (start.stamps n).uid ≠ "") {writes : List Write}
    (hwrites : ∀ write ∈ writes, write.WellFormed) {key : Key} {value : Json}
    (hvalue : (start.after writes).items.get? key = some value) :
    (start.after writes).Represents key value :=
  ((hstart.exact hidentified).after hwrites).represents hvalue

/-- The config map created first is such a value. -/
theorem represents_named : ∃ value,
    (still.after [.create named]).items.get? ⟨⟨"", "v1", "ConfigMap"⟩, "", "a"⟩ = some value ∧
    (still.after [.create named]).Represents ⟨⟨"", "v1", "ConfigMap"⟩, "", "a"⟩ value := by
  have hstored : ((still.after [.create named]).items.get?
      ⟨⟨"", "v1", "ConfigMap"⟩, "", "a"⟩).isSome = true := by decide +kernel
  obtain ⟨value, hvalue⟩ := Option.isSome_iff_exists.mp hstored
  have hidentified : stillStamp.uid ≠ "" := by decide
  have hwrites : ∀ write ∈ [Write.create named], write.WellFormed :=
    List.forall_mem_singleton.mpr wellFormed_named
  exact ⟨value, hvalue, represents_after fresh_still (fun _ => hidentified) hwrites hvalue⟩

end Store

end ClusterObjects
