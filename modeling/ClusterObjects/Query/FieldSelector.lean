import ClusterObjects.Json.Path

/-! # Field selectors

A field selector is a list of clauses between commas, each a path, an operator
and a value, and selects the objects that meet all of them. A backslash takes
the next character of a term as it is, so that a value can hold the characters
that otherwise separate or compare; writing a selector escapes them again. A
clause whose path leads nowhere is met by no object, whatever its operator.
-/

namespace ClusterObjects

/-- How a clause compares. -/
inductive Comparison where
  | equals
  | notEquals
deriving DecidableEq

def Comparison.symbol : Comparison → List Char
  | .equals => ['=']
  | .notEquals => ['!', '=']

/-- A clause of a field selector. -/
structure Requirement where
  path : String
  comparison : Comparison
  value : String
deriving DecidableEq

/-- A conjunction of clauses. -/
structure FieldSelector where
  requirements : List Requirement
deriving DecidableEq

/-- Why a text is no field selector; the term at fault is quoted. -/
inductive SelectorError where
  | missingOperator (term : String)
  | emptyPath (term : String)
  | danglingEscape (term : String)
deriving DecidableEq

def SelectorError.message : SelectorError → String
  | .missingOperator term => "invalid selector term " ++ Text.quoted term ++
      ": expected key=value, key==value or key!=value"
  | .emptyPath term => "invalid selector term " ++ Text.quoted term ++ ": empty field path"
  | .danglingEscape term => "invalid selector term " ++ Text.quoted term ++ ": dangling escape"

namespace FieldSelector

/-- Whether a character has a meaning inside a value and must be escaped there. -/
def isSpecial (c : Char) : Bool := c == '\\' || c == ',' || c == '='

/-- A value with its special characters escaped. -/
def escape : List Char → List Char
  | [] => []
  | c :: rest => if isSpecial c then '\\' :: c :: escape rest else c :: escape rest

/-- The value that an escaped text stands for; a backslash at the end escapes nothing. -/
def unescape? : List Char → Option (List Char)
  | [] => some []
  | ['\\'] => none
  | '\\' :: c :: rest => (unescape? rest).map (c :: ·)
  | c :: rest => (unescape? rest).map (c :: ·)

/-- A text in front of the first of some texts. -/
def onFirst (front : List Char) : List (List Char) → List (List Char)
  | [] => [front]
  | term :: terms => (front ++ term) :: terms

/-- The terms of a selector: the parts between the commas that are not escaped. -/
def terms : List Char → List (List Char)
  | [] => [[]]
  | ['\\'] => [['\\']]
  | '\\' :: c :: rest => onFirst ['\\', c] (terms rest)
  | c :: rest => if c = ',' then [] :: terms rest else onFirst [c] (terms rest)

/-- A term cut at its leftmost operator that is not escaped. -/
def cutAtOperator : List Char → Option (List Char × Comparison × List Char)
  | [] => none
  | ['\\'] => none
  | '\\' :: c :: rest =>
    (cutAtOperator rest).map fun (path, found) => ('\\' :: c :: path, found)
  | '!' :: '=' :: rest => some ([], .notEquals, rest)
  | '=' :: '=' :: rest => some ([], .equals, rest)
  | '=' :: rest => some ([], .equals, rest)
  | c :: rest => (cutAtOperator rest).map fun (path, found) => (c :: path, found)

/-- The clause that a term writes. -/
def requirement (term : List Char) : Except SelectorError Requirement :=
  match cutAtOperator term with
  | none => .error (.missingOperator (String.ofList term))
  | some (path, comparison, raw) =>
    let path := Text.trim path
    if path.isEmpty then .error (.emptyPath (String.ofList term))
    else
      match unescape? raw with
      | none => .error (.danglingEscape (String.ofList term))
      | some value => .ok ⟨String.ofList path, comparison, String.ofList value⟩

/-- The clauses that terms write; the first faulty term decides the error. -/
def requirementsOf : List (List Char) → Except SelectorError (List Requirement)
  | [] => .ok []
  | term :: rest =>
    match requirement term with
    | .error e => .error e
    | .ok first =>
      match requirementsOf rest with
      | .error e => .error e
      | .ok others => .ok (first :: others)

/-- The selector that a text writes; empty terms are skipped. -/
def parse (text : String) : Except SelectorError FieldSelector :=
  match requirementsOf ((terms text.toList).filter fun term => !term.isEmpty) with
  | .error e => .error e
  | .ok requirements => .ok ⟨requirements⟩

def requirementText (r : Requirement) : List Char :=
  r.path.toList ++ r.comparison.symbol ++ escape r.value.toList

def text (selector : FieldSelector) : String :=
  String.ofList (Text.join [','] (selector.requirements.map requirementText))

/-- An escaped value stands for the value. -/
theorem unescape?_escape (value : List Char) : unescape? (escape value) = some value := by
  induction value with
  | nil => rfl
  | cons c rest ih =>
    unfold escape
    split
    next h => simp [unescape?, ih]
    next h =>
      have hc : c ≠ '\\' := by
        rintro rfl
        exact h rfl
      rw [unescape?, ih]
      · rfl
      · intro hback
        exact absurd hback hc
      · rintro d more hback
        exact absurd hback hc

/-- A text has at least one term, perhaps an empty one. -/
theorem terms_ne_nil (text : List Char) : terms text ≠ [] := by
  have hfront : ∀ front more, onFirst front more ≠ [] := by
    intro front more
    cases more <;> simp [onFirst]
  unfold terms
  split
  · simp
  · simp
  · exact hfront _ _
  · split
    · simp
    · exact hfront _ _

end FieldSelector

/-- Whether a value meets a clause. -/
def Requirement.isMetBy (r : Requirement) (tree : Json) : Bool :=
  match tree.lookupAt ('$' :: '.' :: r.path.toList) with
  | .error _ => false
  | .ok found =>
    match r.comparison with
    | .equals => found.plainText == r.value
    | .notEquals => found.plainText != r.value

/-- Whether a value meets every clause of a selector. -/
def FieldSelector.selects (selector : FieldSelector) (tree : Json) : Bool :=
  selector.requirements.all fun r => r.isMetBy tree

end ClusterObjects
