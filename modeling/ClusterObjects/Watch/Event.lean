import ClusterObjects.Object.Container

/-! # Watch events

What a watcher is told: an object was added, modified or deleted, or an error
occurred, which is reported as a status object.
-/

namespace ClusterObjects

/-- What happened to the object of an event. -/
inductive EventType where
  | added
  | modified
  | deleted
  | error
deriving DecidableEq, Inhabited

namespace EventType

/-- The wire name of an event type. -/
def text : EventType → String
  | .added => "ADDED"
  | .modified => "MODIFIED"
  | .deleted => "DELETED"
  | .error => "ERROR"

/-- The event types in the order of their declaration. -/
def all : List EventType := [.added, .modified, .deleted, .error]

def ofText (name : String) : Except DecodeError EventType :=
  match all.find? fun type => type.text == name with
  | some type => .ok type
  | none => .error (.unknownVariant name (all.map text))

end EventType

/-- What a watcher is told. -/
structure Event where
  type : EventType
  object : Container

namespace Event

/-- The kind of the status objects that report errors. -/
def statusKind : Gvk := ⟨"", "v1", "Status"⟩

/-- An error event with a status object. -/
def failure (code : Nat) (reason message : String) : Event :=
  ⟨.error, { Container.generic statusKind with
    body := Entries.ofList [("status", .str "Failure"), ("code", .ofNat code),
      ("reason", .str reason), ("message", .str message)] }⟩

end Event

end ClusterObjects
