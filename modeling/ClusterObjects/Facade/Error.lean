import ClusterObjects.Store.Error

/-! # Façade errors

Why the façade refuses a request. Every cause has a wording for people, a
status for a transport, and a wire form: an object whose only key names the
cause.
-/

namespace ClusterObjects

/-- Why the façade refuses a request. -/
inductive ApiError where
  | kindNotSupported (text : String)
  | notFound (text : String)
  | conflict (text : String)
  | validation (text : String)
  | internal (text : String)
deriving DecidableEq

namespace ApiError

/-- The wording of a façade error. -/
def message : ApiError → String
  | .kindNotSupported text => "kind_not_supported: " ++ text
  | .notFound text => "not_found: " ++ text
  | .conflict text => "conflict: " ++ text
  | .validation text => "validation: " ++ text
  | .internal text => "internal: " ++ text

/-- The HTTP status of a façade error. -/
def status : ApiError → Nat
  | .kindNotSupported _ | .validation _ => 400
  | .notFound _ => 404
  | .conflict _ => 409
  | .internal _ => 500

def cause : ApiError → String
  | .kindNotSupported _ => "KindNotSupported"
  | .notFound _ => "NotFound"
  | .conflict _ => "Conflict"
  | .validation _ => "Validation"
  | .internal _ => "Internal"

/-- The text that goes with the cause. -/
def text : ApiError → String
  | .kindNotSupported text | .notFound text | .conflict text | .validation text
  | .internal text => text

/-- The wire form of a façade error. -/
def toJson (error : ApiError) : Json := .obj [(error.cause, .str error.text)]

/-- The façade error with a cause and a text. -/
def ofCause? (cause text : String) : Option ApiError :=
  [kindNotSupported text, notFound text, conflict text, validation text, internal text].find?
    fun error => error.cause == cause

/-- The façade error with a wire form. -/
def ofJson? : Json → Option ApiError
  | .obj [(cause, .str text)] => ofCause? cause text
  | _ => none

/-- The wire form of an error leads back to the error. -/
theorem ofJson?_toJson (error : ApiError) : ofJson? error.toJson = some error := by
  cases error <;> rfl

/-- The façade error for a store error. -/
def ofStoreError : StoreError → ApiError
  | .notFound text => .notFound text
  | .conflict text => .conflict text
  | .kindNotSupported text => .kindNotSupported text
  | .invalid text => .validation text
  | .backend text => .internal text

/-- The façade error for an object that cannot be loaded. -/
def ofObjectError : ObjectError → ApiError
  | .unsupportedResource name => .kindNotSupported name
  | error => .validation error.message

end ApiError

end ClusterObjects
