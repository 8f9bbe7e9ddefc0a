import ClusterObjects.Object.Collection
import ClusterObjects.Remote.Fault
import ClusterObjects.Watch.Event

/-! # Payloads from a cluster

How the objects, lists and watch lines that a cluster sends are read. An object
keeps its type only if it states both an API version and a kind, its metadata
become canonical, and the rest stays as it is. A list may be null or leave out
the types of its items. Of a watch, blank and unfinished lines are passed over,
and the first line that is no event ends it.
-/

namespace ClusterObjects

namespace Payload

open Shape (optional required)

/-- The shape of the record of who manages which member, as far as it is looked at. -/
def manager : Shape :=
  .record "ManagedFieldsEntry" [
    optional "apiVersion" .text,
    optional "fieldsType" .text,
    optional "manager" .text,
    optional "operation" .text,
    optional "subresource" .text,
    optional "time" .time]

/-- Check the records of who manages which members of an object. -/
def checkManagers (metadata : Json) : Except DecodeError Unit :=
  match metadata.get? "managedFields" with
  | none | some .null => .ok ()
  | some value => ((Shape.listOf manager).decode value).map fun _ => ()

/-- The members of an object without a type that is not stated in full. -/
def dropPartialType (fields : Json.Fields) : Json.Fields :=
  match Entries.get? fields "apiVersion", Entries.get? fields "kind" with
  | some (.str _), some (.str _) => fields
  | some (.str _), _ | none, _ => Entries.erase (Entries.erase fields "apiVersion") "kind"
  | some _, _ => Entries.erase fields "apiVersion"

def decodeObject (value : Json) : Except DecodeError Json :=
  match value with
  | .obj fields =>
    let metadata := (Entries.get? fields "metadata").getD (.obj [])
    match Schema.metadata.decode metadata with
    | .error e => .error e
    | .ok canonical =>
      match checkManagers metadata with
      | .error e => .error e
      | .ok () => .ok (.obj (Entries.insert (dropPartialType fields) "metadata" canonical))
  | value => .error (.invalidType value "DynamicObject")

/-- A list of objects with the version at which it was read. -/
structure ObjectList where
  resourceVersion : Option String
  items : List Json

def listMetadata : Shape :=
  .record "ListMeta" [
    optional "continue" .text,
    optional "remainingItemCount" .int64,
    optional "resourceVersion" .text,
    optional "selfLink" .text]

def decodeList (value : Json) : Except DecodeError ObjectList :=
  match value with
  | .obj fields => do
    let items ← match Entries.get? fields "items" with
      | some .null => .ok []
      | some (.arr items) => Shape.decodeItems decodeObject items
      | some value => .error (.invalidType value "a sequence")
      | none => .error (.missingMember "items")
    let metadata ← listMetadata.decode ((Entries.get? fields "metadata").getD (.obj []))
    .ok ⟨metadata.textAt? "resourceVersion", items⟩
  | value => .error (.invalidType value "ObjectList")

/-- What a line of a watch says. -/
inductive Line where
  | change (type : EventType) (object : Json)
  | bookmark
  | failure (report : StatusReport)
  | incomplete
  | broken

/-- A mark of progress; it must state its type and a version. -/
def isBookmark (object : Json) : Bool :=
  (object.textAt? "apiVersion").isSome && (object.textAt? "kind").isSome &&
    (((object.get? "metadata").bind fun metadata => metadata.textAt? "resourceVersion").isSome)

/-- What the event with a type and an object says. -/
def lineOf (type : String) (object : Json) : Line :=
  if type = "BOOKMARK" then if isBookmark object then .bookmark else .broken
  else
    match EventType.ofText type with
    | .error _ => .broken
    | .ok .error =>
      match StatusReport.decode object with
      | .ok report => .failure report
      | .error _ => .broken
    | .ok type =>
      match decodeObject object with
      | .ok object => .change type object
      | .error _ => .broken

/-- What a line of a watch says. -/
def readLine (text : List Char) : Line :=
  match Json.read text with
  | .error .endOfText => .incomplete
  | .error _ => .broken
  | .ok value =>
    match value.textAt? "type", value.get? "object" with
    | some type, some object => lineOf type object
    | _, _ => .broken

/-- A line without the carriage return at its end. -/
def dropReturn (line : List Char) : List Char := (Text.dropSuffix? ['\r'] line).getD line

/-- The items that the lines of a watch give; an object that the prototype cannot
hold gives none. -/
def itemsOf (prototype : Container) : List (List Char) → List (Option Event)
  | [] => []
  | line :: lines =>
    match readLine (dropReturn line) with
    | .broken => []
    | .incomplete => itemsOf prototype lines
    | .bookmark => none :: itemsOf prototype lines
    | .failure report =>
      some (.failure report.code report.reason report.message) :: itemsOf prototype lines
    | .change type object =>
      match prototype.emptyLike.load object with
      | .ok object => some ⟨type, object⟩ :: itemsOf prototype lines
      | .error _ => none :: itemsOf prototype lines

def watchItems (prototype : Container) (body : List Char) : List (Option Event) :=
  itemsOf prototype (Text.pieces '\n' body)

end Payload

end ClusterObjects
