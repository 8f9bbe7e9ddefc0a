import ClusterObjects.Registry

/-! # The scheme of typed kinds

The kinds whose objects have a known shape. A kind and the kind of its
collections are recognized together; containers are made for the former and
empty collections for the latter.
-/

namespace ClusterObjects

/-- The typed kinds by their identity. -/
structure Scheme where
  kinds : Entries Gvk TypedKind

namespace Scheme

/-- The scheme without any kind. -/
def empty : Scheme := ⟨[]⟩

/-- The typed kinds of a registry; of two registrations of one kind the later counts. -/
def ofRegistry (registry : Registry) : Scheme :=
  ⟨registry.entries.foldl (fun kinds entry =>
    match entry.kind, entry.typed with
    | some gvk, some kind => kinds.insert gvk kind
    | _, _ => kinds) []⟩

/-- The scheme in which an element kind has a shape. -/
def add (scheme : Scheme) (gvk : Gvk) (kind : TypedKind) : Scheme :=
  ⟨scheme.kinds.insert gvk.toItem kind⟩

/-- Whether a kind or its element kind has a shape. -/
def recognizes (scheme : Scheme) (gvk : Gvk) : Bool := scheme.kinds.contains gvk.toItem

/-- An empty typed container for an element kind. -/
def newObject (scheme : Scheme) (gvk : Gvk) : Option Container :=
  if gvk.isList then none else (scheme.kinds.get? gvk).map .ofTyped

/-- An empty typed collection for a kind or the kind of its collections. -/
def newCollection (scheme : Scheme) (gvk : Gvk) : Option Collection :=
  (scheme.newObject gvk.toItem).map .ofPrototype

end Scheme

end ClusterObjects
