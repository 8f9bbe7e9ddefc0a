import ClusterObjects.Object.Collection
import ClusterObjects.Proofs.Identity.Kind
import ClusterObjects.Proofs.Store.Run

/-! # Loading what is stored

A container that loads a stored value keeps its kind, and what it holds afterwards has
the key under which the value is stored and states the version of the value.
-/

namespace ClusterObjects

namespace Stored

theorem get?_metadataOf (value : Json) (field : String) :
    (Container.metadataOf value.fields).get? field = metadata? value field := by
  unfold Container.metadataOf metadata? Json.get?
  cases Entries.get? value.fields "metadata" with
  | none => rfl
  | some metadata => cases metadata <;> rfl

/-- The texts of the metadata are loaded as they are stored. -/
theorem text?_of_loaded {c d : Container} {value : Json} (h : c.Loaded value.fields d)
    (field : String) (hfield : Entries.get? Schema.metadataMembers field = some (false, .text)) :
    (d.metadata.fields.get? field).bind Json.text? = (metadata? value field).bind Json.text? := by
  have htext := Metadata.text?_of_decode hfield h.metadata
  rw [← get?_metadataOf, ← htext]
  rfl

/-- A metadata member in canonical form is loaded as it is stored. -/
theorem get?_of_loaded {c d : Container} {value : Json} (h : c.Loaded value.fields d)
    {field : String} {required : Bool} {shape : Shape}
    (hfield : Entries.get? Schema.metadataMembers field = some (required, shape)) {member : Json}
    (hmember : metadata? value field = some member) (hne : member ≠ .null)
    (hself : shape.decode member = .ok member) : d.metadata.fields.get? field = some member := by
  obtain ⟨members, result, hof, hresult, hdecode⟩ := Schema.decode_metadata_eq_ok h.metadata
  obtain rfl : d.metadata.fields = result := Json.obj.inj hresult
  have hfound : Entries.get? members field = some member := by
    rw [← get?_metadataOf, hof] at hmember
    exact hmember
  have hdecoded :=
    Shape.decodeMember_of_decodeFields Schema.ascending_metadataMembers hdecode hfield
  rw [hfound, Shape.decodeMember_of_ne_null hne, hself] at hdecoded
  exact (Except.ok.inj hdecoded).symm

/-- A value that states a kind does so with the text that the kind is written with, or with an
empty one. -/
theorem Draft.apiVersion_of_statesKind {key : Key} {value : Json} (h : Draft key value) {gvk : Gvk}
    (hstates : Container.StatesKind gvk value) :
    ∃ apiVersion, Gvk.ofApiVersion apiVersion key.gvk.kind = key.gvk ∧
      (apiVersion = gvk.apiVersion ∨ apiVersion = "") := by
  obtain ⟨apiVersion, hversion, _, hidentity⟩ := h.kind
  have hstated := Container.getD_stated?_iff.mp hstates.1 apiVersion hversion
  exact ⟨apiVersion, hidentity, (Classical.em (apiVersion = "")).symm.imp_left hstated⟩

/-- The name of a stated kind is that of the key. -/
theorem Draft.kind_eq_of_statesKind {key : Key} {value : Json} (h : Draft key value)
    (hnamed : key.gvk.kind ≠ "") {gvk : Gvk} (hstates : Container.StatesKind gvk value) :
    key.gvk.kind = gvk.kind := by
  obtain ⟨_, _, hkind, _⟩ := h.kind
  exact Container.getD_stated?_iff.mp hstates.2 _ hkind hnamed

end Stored

namespace Container

/-- A container that accepts a stored value of its kind keeps this kind when it loads, and
states it coherently. -/
theorem coherent_emptyLike {c : Container} {key : Key} {value : Json}
    (hvalue : Stored.Draft key value) (hkey : key.gvk = c.gvk) (hstates : StatesKind c.gvk value) :
    c.emptyLike.gvk = c.gvk ∧ c.emptyLike.Coherent := by
  obtain ⟨apiVersion, hidentity, htext⟩ := hvalue.apiVersion_of_statesKind hstates
  -- The text that states the kind is the one that the kind is written with.
  have hwritten : Gvk.ofApiVersion c.gvk.apiVersion c.gvk.kind = c.gvk := by
    rw [← hkey] at htext ⊢
    rcases htext with rfl | rfl
    · exact hidentity
    · rw [← hidentity]
      rfl
  have hgvk : c.emptyLike.gvk = c.gvk := by
    rcases c.gvk_emptyLike with h | h
    · exact h
    · rw [h, hwritten]
  refine ⟨hgvk, ?_⟩
  unfold Coherent
  rw [hgvk]
  unfold emptyLike
  cases hrep : c.representation with
  | typed kind =>
    unfold gvk
    rw [hrep]
    rfl
  | generic apiVersion kind => rfl

end Container

/-- A container that loads a draft for a key of its kind then has that key. -/
theorem Stored.Draft.keyOf_of_load {key : Key} {value : Json} (h : Stored.Draft key value)
    {c d : Container} (hlawful : c.Lawful) (hkey : key.gvk = c.gvk) (hload : c.load value = .ok d) :
    Store.keyOf d = .ok key := by
  have hloaded := Container.loaded_of_load hlawful h.whole hload
  obtain ⟨fields, rfl, hstates, _⟩ := Container.load_eq_ok_iff.mp hload
  obtain ⟨hgvk, _⟩ := Container.coherent_emptyLike h hkey hstates
  have hname := Stored.text?_of_loaded hloaded "name" rfl
  have hnamespace := Stored.text?_of_loaded hloaded "namespace" rfl
  rw [h.name] at hname
  have hsame : d.gvk = key.gvk := by
    rw [Container.gvk_eq_of_representation hloaded.representation, hgvk, hkey]
  have hdName : d.name = key.name := congrArg (·.getD "") hname
  have hdNamespace : d.namespaceName = key.namespaceName :=
    (congrArg (·.getD "") hnamespace).trans h.namespaceName
  rw [Store.keyOf_eq_ok_iff, Key.ofContainer, hdName, hdNamespace, hsame]
  exact ⟨h.named, rfl⟩

/-- A container that loads a value states its version. -/
theorem Store.HasVersion.of_load {value : Json} {n : Nat} (h : Store.HasVersion value n)
    {c d : Container} (hlawful : c.Lawful) (hvalue : value.WellFormed)
    (hload : c.load value = .ok d) :
    d.metadata.resourceVersion? = some (Store.versionText n) := by
  have hversion := Stored.text?_of_loaded (Container.loaded_of_load hlawful hvalue hload)
    "resourceVersion" rfl
  change (d.metadata.fields.get? "resourceVersion").bind Json.text? = _
  rw [hversion, h]
  rfl

/-! ## Elements of a collection -/

/-- A kind that is written into an element and read from it again is stated by a value of a key
only if nothing is lost on the way. -/
theorem Stored.Draft.ofApiVersion_eq {key : Key} {value : Json} (h : Stored.Draft key value)
    (hstates : Container.StatesKind (Gvk.ofApiVersion key.gvk.apiVersion key.gvk.kind) value) :
    Gvk.ofApiVersion key.gvk.apiVersion key.gvk.kind = key.gvk := by
  obtain ⟨apiVersion, hidentity, htext⟩ := h.apiVersion_of_statesKind hstates
  rcases htext with rfl | rfl
  · rw [Gvk.apiVersion_ofApiVersion_of_twice (congrArg Gvk.apiVersion hidentity)] at hidentity
    exact hidentity
  · rw [← hidentity]
    rfl

/-- A new element of a collection that loads a value stored under a key of the collection's
elements is of the kind of the key, and an empty container like it is the same. -/
theorem Collection.newItem_of_load {collection : Collection} {key : Key} {value : Json}
    (h : Stored.Draft key value) (hkey : key.gvk = collection.itemGvk) {d : Container}
    (hload : collection.newItem.load value = .ok d) :
    collection.newItem.gvk = key.gvk ∧ collection.newItem.emptyLike = collection.newItem := by
  obtain ⟨fields, rfl, hstates, _⟩ := Container.load_eq_ok_iff.mp hload
  obtain ⟨hgroup, hversion, hnamed⟩ := collection.prototype.gvk.toItem_toList
  have hitem : collection.prototype.gvk.toList.toItem = key.gvk := hkey.symm
  rw [hitem] at hgroup hversion hnamed
  have hkind := h.kind_eq_of_statesKind hnamed hstates
  have hsame : ∀ name : String, collection.prototype.gvk.kind = name → key.gvk.kind = name →
      collection.prototype.gvk = key.gvk := fun name hprototype hstored =>
    Gvk.eq_of_parts hgroup.symm hversion.symm (hprototype.trans hstored.symm)
  unfold newItem Container.emptyLike at hstates hkind ⊢
  cases hrep : collection.prototype.representation with
  | typed kind =>
    rw [hrep] at hkind
    have hgvk : collection.prototype.gvk = kind.gvk := by
      unfold Container.gvk
      rw [hrep]
    exact ⟨hgvk.symm.trans (hsame kind.gvk.kind (congrArg Gvk.kind hgvk) hkind), rfl⟩
  | generic apiVersion name =>
    rw [hrep] at hstates hkind
    have hgvk := hsame _ (Gvk.kind_ofApiVersion _ _).symm hkind
    dsimp only at hstates ⊢
    rw [hgvk] at hstates ⊢
    have hread : (Container.generic key.gvk).gvk = key.gvk := h.ofApiVersion_eq hstates
    refine ⟨hread, ?_⟩
    change Container.generic (Container.generic key.gvk).gvk = _
    rw [hread]

end ClusterObjects
