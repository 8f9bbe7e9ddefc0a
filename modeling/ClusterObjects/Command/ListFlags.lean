import ClusterObjects.Command.Error
import ClusterObjects.Query.Basic

/-! # Flags of a listing

The flags that say what a listing shows become the key and value pairs of a
query: first the filters, in their order, and then the other flags. As the first
value of a key counts, a filter can stand in for a flag.
-/

namespace ClusterObjects

/-- The flags of a listing. -/
structure ListFlags where
  filters : List String
  selector : Option String
  page : Option Nat
  limit : Option Nat
  ascending : Bool
  orderBy : Option String
  query : Option String

namespace ListFlags

def none : ListFlags := ⟨[], .none, .none, .none, false, .none, .none⟩

/-- The pairs that filters write; the first that is no pair decides the error. -/
def filterPairs : List String → Except CommandError (List (String × String))
  | [] => .ok []
  | filter :: rest =>
    match Text.cut ['='] filter.toList with
    | .none => .error (.badFilter filter)
    | some (key, value) =>
      match filterPairs rest with
      | .error e => .error e
      | .ok pairs => .ok ((String.ofList key, String.ofList value) :: pairs)

def numberText (n : Nat) : String := String.ofList (Text.decimal n)

/-- The pairs of the flags other than filters. A page means nothing without a limit. -/
def flagPairs (flags : ListFlags) : List (String × String) :=
  (match flags.limit with
    | some limit => [("limit", numberText limit), ("page", numberText (flags.page.getD 1))]
    | .none => []) ++
  (if flags.ascending then [("ascending", "true")] else []) ++
  (flags.orderBy.toList.map fun text => ("orderBy", text)) ++
  (flags.selector.toList.map fun text => ("labelSelector", text))

def build (flags : ListFlags) : Except CommandError Query :=
  match filterPairs flags.filters with
  | .ok pairs => .ok (.ofPairs (pairs ++ flags.flagPairs))
  | .error e => .error e

/-- The query of a listing: a query string if one is given, and otherwise what the
other flags build. -/
def toQuery (flags : ListFlags) : Except CommandError Query :=
  match flags.query with
  | some text => .ok (.ofQueryString text)
  | .none => flags.build

end ListFlags

end ClusterObjects
