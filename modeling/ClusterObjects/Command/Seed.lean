import ClusterObjects.Command.Error
import ClusterObjects.Facade.Operations
import ClusterObjects.Yaml.Reader

/-! # Seeds

A seed is a stream of documents that are created in a store before a command
runs. Empty documents count for nothing and a document that is a sequence stands
for its items. An object whose kind no resource has is passed over; any other is
created in the namespace that it states or else in the one given.
-/

namespace ClusterObjects

/-- A command on a store: it acts on the store and may fail. -/
abbrev CommandM (σ : Type) := ExceptT CommandError (StateM σ)

namespace Seed

/-- The objects that documents stand for. -/
def flatten (documents : List Json) : List Json :=
  documents.flatMap fun
    | .null => []
    | .arr items => items
    | document => [document]

def statedKind (object : Json) : Gvk :=
  .ofApiVersion ((object.textAt? "apiVersion").getD "") ((object.textAt? "kind").getD "")

/-- The first registration of a kind. -/
def registration? (registry : Registry) (gvk : Gvk) : Option Registration :=
  registry.entries.find? fun entry => entry.kind == some gvk

/-- The namespace that an object states, or a given one. -/
def namespaceOf (object : Json) (given : String) : String :=
  ((object.get? "metadata").bind fun metadata => metadata.textAt? "namespace").getD given

/-- A request of the façade as part of seeding a kind. -/
def within {σ α : Type} (gvk : Gvk) (request : FacadeM σ α) : CommandM σ α := fun store =>
  match request store with
  | (.ok result, store) => (.ok result, store)
  | (.error e, store) => (.error (.seeding gvk e), store)

variable {σ : Type} [ObjectStore σ]

/-- Create objects; the result is the number of those that were created. -/
def sow (registry : Registry) (namespaceName : String) : List Json → CommandM σ Nat
  | [] => pure 0
  | object :: rest => do
    let gvk := statedKind object
    match registration? registry gvk with
    | none => sow registry namespaceName rest
    | some entry =>
      let _ ← within gvk (Facade.create entry.gvr (namespaceOf object namespaceName) object)
      let count ← sow registry namespaceName rest
      return count + 1

/-- Create the objects of a stream of documents. -/
def plant (registry : Registry) (namespaceName text : String) : CommandM σ Nat :=
  match Yaml.documents text with
  | .ok documents => sow registry namespaceName (flatten documents)
  | .error e => throw (.badSeed e)

end Seed

end ClusterObjects
