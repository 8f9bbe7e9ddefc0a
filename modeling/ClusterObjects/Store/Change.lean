import ClusterObjects.Store.Error
import ClusterObjects.Store.Key
import ClusterObjects.Watch.Event

/-! # Changes and selections

A change is what one accepted write does to a store: an object at a key was
added, modified or deleted, with its new value, or its last one if it was
deleted. A selection says which objects a list or a watch is about.
-/

namespace ClusterObjects

/-- What one accepted write does to a store. -/
structure Change where
  key : Key
  type : EventType
  value : Json

/-! ## Metadata members of stored values -/

namespace Stored

def metadata? (value : Json) (field : String) : Option Json :=
  (value.get? "metadata").bind fun metadata => metadata.get? field

/-- A nonempty text among the metadata of a stored value. -/
def text? (value : Json) (field : String) : Option String :=
  ((metadata? value field).bind Json.text?).filter fun text => !text.isEmpty

def setMetadata (field : String) (member : Json) (value : Json) : Json :=
  match value with
  | .obj fields =>
    match Entries.get? fields "metadata" with
    | none => .obj (Entries.insert fields "metadata" (.obj [(field, member)]))
    | some (.obj metadata) =>
      .obj (Entries.insert fields "metadata" (.obj (Entries.insert metadata field member)))
    | some _ => value
  | _ => value

/-- The labels of a stored value; a label that is no text does not count. -/
def labels (value : Json) : Entries String String :=
  match metadata? value "labels" with
  | some (.obj labels) =>
    labels.filterMap fun (key, label) => label.text?.map fun text => (key, text)
  | _ => []

/-- The members that belong to the server and survive every later write. -/
def serverFields : List String := ["uid", "creationTimestamp"]

/-- A value with one metadata member taken over from the stored value. -/
def keepField (stored : Json) (next : Json) (field : String) : Json :=
  match metadata? stored field with
  | some member => setMetadata field member next
  | none => next

/-- A value with the server's metadata members taken over from the stored value. -/
def keepServerFields (stored next : Json) : Json :=
  serverFields.foldl (keepField stored) next

/-- A metadata member that is stated is found again, and no other member notices. -/
theorem metadata?_setMetadata {fields : Json.Fields}
    (h : ∀ metadata ∈ Entries.get? fields "metadata", metadata.isObject = true)
    (field other : String) (member : Json) :
    metadata? (setMetadata field member (.obj fields)) other =
      if field = other then some member else metadata? (.obj fields) other := by
  unfold setMetadata
  cases hmetadata : Entries.get? fields "metadata" with
  | none =>
    simp [metadata?, Json.get?, Json.fields, hmetadata, Entries.get?_insert, Entries.get?_cons]
  | some metadata =>
    have hobject := h metadata hmetadata
    cases metadata with
    | obj members =>
      simp [metadata?, Json.get?, Json.fields, hmetadata, Entries.get?_insert]
    | _ => contradiction

end Stored

/-- Which stored objects a list or a watch is about. -/
structure Selection where
  gvk : Gvk
  namespaceName : String
  requirements : List LabelRequirement

def Selection.includes (selection : Selection) (key : Key) (value : Json) : Bool :=
  key.gvk == selection.gvk &&
    (selection.namespaceName.isEmpty || key.namespaceName == selection.namespaceName) &&
    (selection.requirements.isEmpty ||
      LabelSelector.selects selection.requirements (Stored.labels value))

/-- The event that a change gives a watcher of a selection, if the change concerns
it and its value can be loaded. -/
def Change.event? (selection : Selection) (prototype : Container) (change : Change) :
    Option Event :=
  if selection.includes change.key change.value then
    match prototype.emptyLike.load change.value with
    | .ok object => some ⟨change.type, object⟩
    | .error _ => none
  else none

theorem Change.event?_eq_some_iff {selection : Selection} {prototype : Container}
    {change : Change} {event : Event} :
    change.event? selection prototype = some event ↔
      selection.includes change.key change.value = true ∧
        prototype.emptyLike.load change.value = .ok event.object ∧ event.type = change.type := by
  unfold Change.event?
  split
  next hincludes =>
    rw [and_iff_right hincludes]
    split
    next object hload =>
      constructor
      · intro h
        obtain rfl := Option.some.inj h
        exact ⟨hload, rfl⟩
      · rintro ⟨hobject, htype⟩
        obtain rfl := Except.ok.inj (hload.symm.trans hobject)
        rw [← htype]
    next e herror =>
      refine iff_of_false nofun fun h => ?_
      rw [herror] at h
      exact absurd h.1 nofun
  next hexcludes => exact iff_of_false nofun fun h => hexcludes h.1

end ClusterObjects
