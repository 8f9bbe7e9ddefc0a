import ClusterObjects.Object.Collection

/-! # The registry of resources

The resources that are known by a short name, in the order in which their names
were first registered. An index from names to positions finds an entry; a
second registration under one name replaces the entry at its position.
-/

namespace ClusterObjects

/-- A registered resource: its name and address, its kind if that is known in
advance, and the shape of its objects if they have one. -/
structure Registration where
  name : String
  gvr : Gvr
  kind : Option Gvk
  typed : Option TypedKind

/-- The registered resources and the position of each name among them. -/
structure Registry where
  entries : List Registration
  positions : Entries String Nat

namespace Registry

/-- The registry without any resource. -/
def empty : Registry := ⟨[], []⟩

def register (registry : Registry) (entry : Registration) : Registry :=
  match registry.positions.get? entry.name with
  | some position => { registry with entries := registry.entries.set position entry }
  | none =>
    ⟨registry.entries ++ [entry], registry.positions.insert entry.name registry.entries.length⟩

/-- Register a resource whose objects have a known shape under its own name. -/
def registerTyped (registry : Registry) (name : String) (kind : TypedKind) : Registry :=
  registry.register ⟨name, ⟨kind.gvk.group, kind.gvk.version, name⟩, some kind.gvk, some kind⟩

/-- Register a resource whose objects stay generic. -/
def registerGeneric (registry : Registry) (name : String) (gvr : Gvr) (kind : Option Gvk) :
    Registry :=
  registry.register ⟨name, gvr, kind, none⟩

def entry? (registry : Registry) (name : String) : Option Registration :=
  (registry.positions.get? name).bind fun position => registry.entries[position]?

/-- The address of a resource by its name. -/
def lookup (registry : Registry) (name : String) : Except ObjectError Gvr :=
  match registry.entry? name with
  | some entry => .ok entry.gvr
  | none => .error (.unsupportedResource name)

/-- An empty typed container for a resource by its name. -/
def newObject (registry : Registry) (name : String) : Except ObjectError Container :=
  match (registry.entry? name).bind Registration.typed with
  | some kind => .ok (.ofTyped kind)
  | none => .error (.unsupportedResource name)

/-- The number of registered names. -/
def size (registry : Registry) : Nat := registry.entries.length

/-- The guestbooks of the sample API, whose objects stay generic. -/
def guestbooks : Registration :=
  ⟨"guestbooks", ⟨"samples.dtweave.io", "v1", "guestbooks"⟩,
    some ⟨"samples.dtweave.io", "v1", "Guestbook"⟩, none⟩

/-- The registry of the catalog and of the sample resource. -/
def builtin : Registry :=
  (Schema.catalog.foldl (fun registry (name, kind) => registry.registerTyped name kind)
    empty).register guestbooks

end Registry

end ClusterObjects
