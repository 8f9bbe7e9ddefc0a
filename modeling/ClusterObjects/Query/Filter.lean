import ClusterObjects.Object.Container
import ClusterObjects.Query.Basic
import ClusterObjects.Query.FieldSelector

/-! # Filters on objects

Whether an object passes one filter of a query, and whether one object comes
before another. All filters but the field selector read the object's metadata,
and an object without a name passes none of these.
-/

namespace ClusterObjects

namespace Filter

/-- A label filter: a key, and the value it is compared with. -/
structure LabelTest where
  key : String
  negated : Bool
  value : String
deriving DecidableEq

/-- The test that a label filter writes: `key=value`, `key!=value`, or a key alone,
which asks for any value. -/
def labelTest (filter : String) : LabelTest :=
  let (key, value) := (Text.cut ['='] filter.toList).getD (filter.toList, ['*'])
  match Text.dropSuffix? ['!'] key with
  | some key => ⟨String.ofList key, true, String.ofList value⟩
  | none => ⟨String.ofList key, false, String.ofList value⟩

/-- Whether labels pass a label filter. Every form of filter asks for the key to be
there; `*` matches any value. -/
def acceptsLabels (labels : Option (Entries String String)) (filter : String) : Bool :=
  let test := labelTest filter
  match labels.bind (Entries.get? · test.key) with
  | none => false
  | some actual =>
    if test.negated then actual != test.value else test.value == "*" || actual == test.value

def acceptsMetadata (metadata : Metadata) (field : Field) (value : String) : Bool :=
  match field with
  | .names => (Text.pieces ',' value.toList).any fun name => String.ofList name == metadata.name
  | .name => Text.occursIn value.toList metadata.name.toList
  | .uid => metadata.uid == value
  | .namespaceName => metadata.namespaceName == value
  | .ownerReference => metadata.owners.any fun owner => owner.uid == value
  | .ownerKind => metadata.owners.any fun owner => owner.kind == value
  | .label => acceptsLabels metadata.labels? value
  | .annotated => acceptsLabels metadata.annotations? value
  | .fieldSelector | .other _ => false

/-- The field selector of a query, if it has one that can be read. -/
def selectorOf (query : Query) : Option FieldSelector :=
  (query.filters.get? .fieldSelector).bind fun text => (FieldSelector.parse text).toOption

/-- Whether an object passes a filter of a query whose field selector is given. -/
def accepts (selector : Option FieldSelector) (object : Container) (field : Field)
    (value : String) : Bool :=
  match field with
  | .fieldSelector => (selector.map fun s => s.selects object.toJson).getD false
  | field =>
    match object.metadata.access with
    | .ok metadata => acceptsMetadata metadata field value
    | .error _ => false

end Filter

namespace Metadata

/-- Whether one optional instant is later than another; none is earlier than any. -/
def later (left right : Option Instant) : Bool :=
  match left, right with
  | some left, some right => right.before left
  | some _, none => true
  | none, _ => false

/-- Whether one object outranks another: by name, or by creation time and then by
name. -/
def outranks (left right : Metadata) : SortField → Bool
  | .name => decide (right.name < left.name)
  | .createTime =>
    if left.created = right.created then decide (right.name < left.name)
    else later left.created right.created

end Metadata

/-- Whether one object outranks another; objects without a name take no part. -/
def Container.outranks (left right : Container) (sortBy : SortField) : Bool :=
  match left.metadata.access, right.metadata.access with
  | .ok l, .ok r => l.outranks r sortBy
  | _, _ => false

end ClusterObjects
