import ClusterObjects.Entries
import ClusterObjects.Text.Blank
import ClusterObjects.Text.Cut
import ClusterObjects.Text.Quoted

/-! # Label selectors

A label selector is a list of terms between commas, each of which asks for a
label to have a value, not to have it, to be there, or to be absent. White space
around keys, values and terms does not count, and neither do empty terms. Terms
that name sets of values are refused.
-/

namespace ClusterObjects

/-- What a term of a label selector asks for. -/
inductive LabelRequirement where
  | equals (key value : String)
  | notEquals (key value : String)
  | present (key : String)
  | absent (key : String)
deriving DecidableEq

/-- Why a text is no label selector; the term at fault is quoted. -/
inductive LabelSelectorError where
  | emptyKey (term : String)
  | unsupported (term : String)
deriving DecidableEq

def LabelSelectorError.message : LabelSelectorError → String
  | .emptyKey term => "empty label key in " ++ Text.quoted term
  | .unsupported term => "unsupported label selector term " ++ Text.quoted term

/-- Whether labels meet a requirement. A label that is absent has no value, so it
also does not have the value that must not be there. -/
def LabelRequirement.isMetBy (labels : Entries String String) : LabelRequirement → Bool
  | .equals key value => labels.get? key == some value
  | .notEquals key value => labels.get? key != some value
  | .present key => labels.contains key
  | .absent key => !labels.contains key

namespace LabelSelector

/-- The key of a term, without the white space around it. -/
def key (raw term : List Char) : Except LabelSelectorError String :=
  let trimmed := Text.trim raw
  if trimmed.isEmpty then .error (.emptyKey (String.ofList term)) else .ok (String.ofList trimmed)

/-- The requirement that a trimmed term writes. -/
def requirement (term : List Char) : Except LabelSelectorError LabelRequirement :=
  match Text.cut ['!', '='] term with
  | some (raw, value) =>
    (key raw term).map fun key => .notEquals key (String.ofList (Text.trim value))
  | none =>
    match (Text.cut ['=', '='] term).or (Text.cut ['='] term) with
    | some (raw, value) =>
      (key raw term).map fun key => .equals key (String.ofList (Text.trim value))
    | none =>
      match term with
      | '!' :: raw => (key raw term).map .absent
      | _ =>
        if term.contains ' ' || term.contains '(' then
          .error (.unsupported (String.ofList term))
        else .ok (.present (String.ofList term))

/-- The requirements that terms write; the first faulty term decides the error. -/
def requirements : List (List Char) → Except LabelSelectorError (List LabelRequirement)
  | [] => .ok []
  | term :: rest =>
    match requirement term with
    | .error e => .error e
    | .ok first =>
      match requirements rest with
      | .error e => .error e
      | .ok others => .ok (first :: others)

def parse (selector : String) : Except LabelSelectorError (List LabelRequirement) :=
  requirements
    (((Text.pieces ',' selector.toList).map Text.trim).filter fun term => !term.isEmpty)

/-- Whether labels meet all requirements. -/
def selects (requirements : List LabelRequirement) (labels : Entries String String) : Bool :=
  requirements.all fun requirement => requirement.isMetBy labels

end LabelSelector

end ClusterObjects
