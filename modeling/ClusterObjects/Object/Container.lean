import ClusterObjects.Object.Metadata

/-! # Object containers

A container holds one object of one kind. A typed container knows the shape of
its kind and keeps the members of that shape; a generic one keeps every member
it is given, except that its metadata is read by the shape of all metadata.

Loading a value replaces the contents of a container and never its kind: a
value that states another kind is refused, a value that states none is taken
for one of the container's kind, and a refused value leaves the container as it
was.
-/

namespace ClusterObjects

/-- How a container keeps its object, and of which kind. -/
inductive Representation where
  | typed (kind : TypedKind)
  | generic (apiVersion kind : String)

/-- A container of one object. -/
structure Container where
  representation : Representation
  metadata : Metadata
  body : Json.Fields

/-- Why a value cannot be loaded, or a resource has no container. -/
inductive ObjectError where
  | unsupportedResource (name : String)
  | kindMismatch (expected found : String)
  | notAnObject
  | decode (error : DecodeError)

def ObjectError.message : ObjectError → String
  | .unsupportedResource name => "unsupported resource type: " ++ name
  | .kindMismatch expected found =>
    "wrong resource GroupVersionKind: expected " ++ expected ++ ", got " ++ found
  | .notAnObject => "object is not a JSON mapping"
  | .decode error => "decode: " ++ error.message

namespace Container

def ofTyped (kind : TypedKind) : Container :=
  ⟨.typed kind, .empty, Entries.erase (Shape.emptyFields kind.fields) "metadata"⟩

def generic (gvk : Gvk) : Container := ⟨.generic gvk.apiVersion gvk.kind, .empty, []⟩

/-- Whether the container knows the shape of its kind. -/
def isTyped (container : Container) : Bool :=
  match container.representation with
  | .typed _ => true
  | .generic .. => false

def gvk (container : Container) : Gvk :=
  match container.representation with
  | .typed kind => kind.gvk
  | .generic apiVersion kind => .ofApiVersion apiVersion kind

/-- The texts that state the kind in the object itself. -/
def statedKind (container : Container) : String × String :=
  match container.representation with
  | .typed kind => (kind.gvk.apiVersion, kind.gvk.kind)
  | .generic apiVersion kind => (apiVersion, kind)

/-- The object's name, empty when it has none. -/
def name (container : Container) : String := container.metadata.name

/-- The object's namespace, empty when it has none. -/
def namespaceName (container : Container) : String := container.metadata.namespaceName

/-- An empty container of the same kind and representation. -/
def emptyLike (container : Container) : Container :=
  match container.representation with
  | .typed kind => ofTyped kind
  | .generic .. => generic container.gvk

def toJson (container : Container) : Json :=
  let (apiVersion, kind) := container.statedKind
  .obj (((container.body.insert "apiVersion" (.str apiVersion)).insert "kind" (.str kind)).insert
    "metadata" container.metadata.toJson)

/-- The object as a document. A typed object has its members in key order; a
generic one states its kind and its metadata first. -/
def document (container : Container) : Json :=
  match container.representation with
  | .typed _ => container.toJson
  | .generic apiVersion kind =>
    .obj (("apiVersion", .str apiVersion) :: ("kind", .str kind) ::
      ("metadata", container.metadata.toJson) :: container.body)

/-- A nonempty text under a key. -/
def stated? (fields : Json.Fields) (key : String) : Option String :=
  ((fields.get? key).bind Json.text?).filter fun text => !text.isEmpty

/-- The members of a value that states the given kind or none. -/
def checkKind (gvk : Gvk) (value : Json) : Except ObjectError Json.Fields :=
  match value with
  | .obj fields =>
    let version := (stated? fields "apiVersion").getD gvk.apiVersion
    let kind := (stated? fields "kind").getD gvk.kind
    if version = gvk.apiVersion ∧ kind = gvk.kind then .ok fields
    else .error (.kindMismatch gvk.text (version ++ "/" ++ kind))
  | _ => .error .notAnObject

/-- The members without the record of who manages which of them. -/
def dropManagedFields (fields : Json.Fields) : Json.Fields :=
  match fields.get? "metadata" with
  | some (.obj metadata) => fields.insert "metadata" (.obj (Entries.erase metadata "managedFields"))
  | _ => fields

/-- The metadata among the members of an object; absent and null count as empty. -/
def metadataOf (fields : Json.Fields) : Json :=
  match fields.get? "metadata" with
  | none | some .null => .obj []
  | some value => value

def loadTyped (kind : TypedKind) (fields : Json.Fields) : Except ObjectError Container :=
  match Shape.decodeFields kind.fields fields with
  | .error e => .error (.decode e)
  | .ok canonical =>
    .ok ⟨.typed kind, ⟨(metadataOf canonical).fields, Metadata.statedCreation (metadataOf fields)⟩,
      Entries.erase canonical "metadata"⟩

/-- The contents of a generic container of a kind from the members of an object. -/
def loadGeneric (gvk : Gvk) (fields : Json.Fields) : Except ObjectError Container :=
  match Metadata.decode (metadataOf fields) with
  | .error e => .error (.decode e)
  | .ok metadata =>
    .ok ⟨.generic gvk.apiVersion gvk.kind, metadata,
      ((fields.erase "metadata").erase "apiVersion").erase "kind"⟩

def load (container : Container) (value : Json) : Except ObjectError Container :=
  match checkKind container.gvk value with
  | .error e => .error e
  | .ok fields =>
    let fields := dropManagedFields fields
    match container.representation with
    | .typed kind => loadTyped kind fields
    | .generic .. => loadGeneric container.gvk fields

end Container

end ClusterObjects
