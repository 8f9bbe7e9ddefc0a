import ClusterObjects.Object.Container
import ClusterObjects.Store.LabelSelector

/-! # Store errors and options

Why a store refuses an operation, and what a list or a watch is restricted to.
-/

namespace ClusterObjects

/-- Why a store refuses an operation. -/
inductive StoreError where
  | notFound (text : String)
  | conflict (text : String)
  | kindNotSupported (text : String)
  | invalid (text : String)
  | backend (text : String)
deriving DecidableEq

namespace StoreError

def message : StoreError → String
  | .notFound text => "not found: " ++ text
  | .conflict text => "conflict: " ++ text
  | .kindNotSupported text => "kind not supported: " ++ text
  | .invalid text => "invalid: " ++ text
  | .backend text => "backend: " ++ text

/-- The store error for an object that cannot be loaded. -/
def ofObjectError : ObjectError → StoreError
  | .unsupportedResource name => .kindNotSupported name
  | error => .invalid error.message

end StoreError

/-- What a list or a watch is restricted to. An empty namespace restricts nothing. -/
structure ListOptions where
  namespaceName : String
  labels : Option String
  fields : Option String

namespace ListOptions

/-- The objects of a namespace, or of all namespaces if it is empty. -/
def inNamespace (namespaceName : String) : ListOptions := ⟨namespaceName, none, none⟩

/-- Only the objects that a label selector selects; an empty one restricts nothing. -/
def select (options : ListOptions) (selector : Option String) : ListOptions :=
  { options with labels := selector.filter fun text => !text.isEmpty }

def requirements (options : ListOptions) : Except StoreError (List LabelRequirement) :=
  match options.labels with
  | none => .ok []
  | some selector =>
    match LabelSelector.parse selector with
    | .ok requirements => .ok requirements
    | .error e => .error (.invalid e.message)

end ListOptions

end ClusterObjects
