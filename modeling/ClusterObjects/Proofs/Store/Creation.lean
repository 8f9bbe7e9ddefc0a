import ClusterObjects.Proofs.Store.Run

/-! # What a creation adds

A creation that succeeds has stored an object under its key, where nothing was. The value of the
new object is the one submitted but for three members of its metadata: the version, and the
identifier and the creation time where none is stated.
-/

namespace ClusterObjects

namespace Stored

variable {old middle value new : Json} {fields others : List String} {other : String}

/-- The new value states metadata and is the old one but for some members of the metadata. -/
structure Amends (fields : List String) (old new : Json) : Prop where
  metadata : ∃ members, new.get? "metadata" = some (.obj members)
  member : ∀ key, key ≠ "metadata" → new.get? key = old.get? key
  field : ∀ field, field ∉ fields → metadata? new field = metadata? old field

theorem amends_self (h : ∃ members, value.get? "metadata" = some (.obj members))
    (fields : List String) : Amends fields value value :=
  ⟨h, fun _ _ => rfl, fun _ _ => rfl⟩

theorem Amends.trans (h : Amends fields old middle) (hnext : Amends others middle new) :
    Amends (fields ++ others) old new := by
  refine ⟨hnext.metadata, fun key hkey => ?_, fun field hfield => ?_⟩
  · rw [hnext.member key hkey, h.member key hkey]
  · rw [List.mem_append, not_or] at hfield
    rw [hnext.field field hfield.2, h.field field hfield.1]

/-- A value with a text for a member of its metadata, unless it states one. -/
def fill (field text : String) (value : Json) : Json :=
  if (text? value field).isSome then value else setMetadata field (.str text) value

section

variable (h : ∃ members, value.get? "metadata" = some (.obj members))
include h

theorem amends_setMetadata (field : String) (member : Json) :
    Amends [field] value (setMetadata field member value) := by
  obtain ⟨members, hmembers⟩ := h
  refine ⟨⟨_, (get?_setMetadata hmembers field member _).trans (if_pos rfl)⟩, ?_, ?_⟩
  · intro key hkey
    rw [get?_setMetadata hmembers, if_neg hkey.symm]
  · intro other hother
    rw [metadata?_setMetadata_of_obj hmembers, if_neg fun heq => hother (by simp [heq])]

theorem amends_fill (field text : String) : Amends [field] value (fill field text value) := by
  unfold fill
  split
  · exact amends_self h _
  · exact amends_setMetadata h field _

/-- A text that is stated stays. -/
theorem metadata?_fill (hstated : (text? value other).isSome) (field text : String) :
    metadata? (fill field text value) other = metadata? value other := by
  by_cases heq : field = other
  · rw [fill, if_pos (heq ▸ hstated)]
  · exact (amends_fill h field text).field other (by simp [Ne.symm heq])

end

end Stored

namespace Store

/-- A creation that succeeds has been carried out at a key where nothing was stored. -/
theorem create_eq_ok {store : Store} {object result : Container}
    (h : (store.create object).result = .ok result) :
    store.items.get? (.ofContainer object) = none ∧
      (store.create object).store = store.commit
        ⟨.ofContainer object, .added, store.setVersion (store.stampNew object.toJson)⟩ := by
  unfold create at h ⊢
  cases hadmits : store.admitCreate object with
  | error e =>
    rw [hadmits] at h
    contradiction
  | ok change =>
    obtain ⟨key, hkey, hnew, rfl⟩ := admitCreate_eq_ok hadmits
    obtain rfl := (keyOf_eq_ok_iff.mp hkey).2
    exact ⟨hnew, rfl⟩

/-- What the store adds to the value of a new object. -/
structure Completes (old new : Json) : Prop extends
    Stored.Amends ["uid", "creationTimestamp", "resourceVersion"] old new where
  kept : ∀ field ∈ Stored.serverFields, (Stored.text? old field).isSome →
    Stored.metadata? new field = Stored.metadata? old field

/-- The store adds a version, and an identifier and a creation time if there are none. -/
theorem completes_setVersion_stampNew {value : Json}
    (h : ∃ members, value.get? "metadata" = some (.obj members)) (store : Store) :
    Completes value (store.setVersion (store.stampNew value)) := by
  obtain ⟨uid, created, hstamp⟩ : ∃ uid created, store.stampNew value =
      Stored.fill "creationTimestamp" created (Stored.fill "uid" uid value) := ⟨_, _, rfl⟩
  have huid := Stored.amends_fill h "uid" uid
  have hcreated := Stored.amends_fill huid.metadata "creationTimestamp" created
  have hversion := Stored.amends_setMetadata hcreated.metadata "resourceVersion"
    (.str store.nextVersion)
  rw [hstamp]
  refine ⟨(huid.trans hcreated).trans hversion, fun field hfield hstated => ?_⟩
  have hkept := Stored.metadata?_fill h hstated "uid" uid
  have hstill : (Stored.text? (Stored.fill "uid" uid value) field).isSome := by
    unfold Stored.text? at hstated ⊢
    rwa [hkept]
  have hother : ∀ field ∈ Stored.serverFields, field ∉ ["resourceVersion"] := by decide
  rw [setVersion, hversion.field field (hother field hfield),
    Stored.metadata?_fill huid.metadata hstill, hkept]

end Store

end ClusterObjects
