import ClusterObjects.Schema.Catalog

/-! # Object metadata

The metadata of an object in canonical form, together with the exact instant of
its creation: the canonical form shows whole seconds only, while objects are
ordered by the instant itself.
-/

namespace ClusterObjects

/-- Object metadata: the members in canonical form, and the exact creation time. -/
structure Metadata where
  fields : Json.Fields
  created : Option Instant
deriving Inhabited

namespace Metadata

/-- Metadata without any member. -/
def empty : Metadata := ⟨[], none⟩

def statedCreation (value : Json) : Option Instant :=
  (value.textAt? "creationTimestamp").bind fun text => (Rfc3339.read text).toOption

def decode (value : Json) : Except DecodeError Metadata :=
  (Schema.metadata.decode value).map fun canonical => ⟨canonical.fields, statedCreation value⟩

def toJson (metadata : Metadata) : Json := .obj metadata.fields

/-- The text of a member; absent members have an empty one. -/
def textAt (metadata : Metadata) (key : String) : String :=
  ((metadata.fields.get? key).bind Json.text?).getD ""

/-- The object's name, empty when it has none. -/
def name (metadata : Metadata) : String := metadata.textAt "name"

/-- The object's namespace, empty when it has none. -/
def namespaceName (metadata : Metadata) : String := metadata.textAt "namespace"

/-- The object's unique identifier, empty when it has none. -/
def uid (metadata : Metadata) : String := metadata.textAt "uid"

/-- The version of the stored object, if it states one. -/
def resourceVersion? (metadata : Metadata) : Option String :=
  (metadata.fields.get? "resourceVersion").bind Json.text?

/-- A map of texts among the members. -/
def textsAt? (metadata : Metadata) (key : String) : Option (Entries String String) :=
  match metadata.fields.get? key with
  | some (.obj fields) =>
    some (fields.filterMap fun (key, value) => value.text?.map fun text => (key, text))
  | _ => none

/-- The labels, if there are any. -/
def labels? (metadata : Metadata) : Option (Entries String String) := metadata.textsAt? "labels"

/-- The annotations, if there are any. -/
def annotations? (metadata : Metadata) : Option (Entries String String) :=
  metadata.textsAt? "annotations"

/-- An object that owns another, by its kind and its identifier. -/
structure Owner where
  kind : String
  uid : String
deriving DecidableEq

def owners (metadata : Metadata) : List Owner :=
  match metadata.fields.get? "ownerReferences" with
  | some (.arr references) =>
    references.map fun reference =>
      ⟨(reference.textAt? "kind").getD "", (reference.textAt? "uid").getD ""⟩
  | _ => []

/-- State the text of a member. -/
def setText (metadata : Metadata) (key text : String) : Metadata :=
  { metadata with fields := metadata.fields.insert key (.str text) }

/-- State the version of the stored object, or drop it. -/
def setResourceVersion (metadata : Metadata) (version : Option String) : Metadata :=
  match version with
  | some text => metadata.setText "resourceVersion" text
  | none => { metadata with fields := metadata.fields.erase "resourceVersion" }

/-- Why the metadata of an object cannot be used. -/
inductive AccessError where
  | missingName
deriving DecidableEq

def AccessError.message : AccessError → String
  | .missingName => "object has no metadata.name"

def access (metadata : Metadata) : Except AccessError Metadata :=
  if metadata.name.isEmpty then .error .missingName else .ok metadata

end Metadata

end ClusterObjects
