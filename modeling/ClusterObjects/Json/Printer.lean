import ClusterObjects.Json.Basic
import ClusterObjects.Number.Shortest

/-! # JSON texts

The compact form has no white space at all; the indented form puts every item
and member on a line of its own. Strings escape the double quote, the backslash
and the control characters, so that no text of a value ever holds a raw line
break outside the indentation.
-/

namespace ClusterObjects.Json

/-- Doubles in JSON texts show the sign of a positive exponent. -/
def numberStyle : Double.Style := ⟨true⟩

def numberText : Number → List Char
  | .integer n => Text.signedDecimal n
  | .double d => d.text numberStyle

/-- How one character is written inside a JSON string. -/
def escapeChar (c : Char) : List Char :=
  if c = '"' then ['\\', '"']
  else if c = '\\' then ['\\', '\\']
  else if c = '\n' then ['\\', 'n']
  else if c = '\r' then ['\\', 'r']
  else if c = '\t' then ['\\', 't']
  else if c.toNat = 8 then ['\\', 'b']
  else if c.toNat = 12 then ['\\', 'f']
  else if c.toNat < 32 then
    ['\\', 'u', '0', '0', Text.hexDigit (c.toNat / 16), Text.hexDigit c.toNat]
  else [c]

def stringText (text : String) : List Char := '"' :: text.toList.flatMap escapeChar ++ ['"']

mutual
/-- The compact text of a value. -/
def compact : Json → List Char
  | .null => ['n', 'u', 'l', 'l']
  | .bool true => ['t', 'r', 'u', 'e']
  | .bool false => ['f', 'a', 'l', 's', 'e']
  | .num n => numberText n
  | .str s => stringText s
  | .arr [] => ['[', ']']
  | .arr (item :: items) => '[' :: compact item ++ compactItems items
  | .obj [] => ['\x7b', '\x7d']
  | .obj (field :: fields) => '\x7b' :: compactField field ++ compactFields fields
termination_by structural value => value

/-- The items after the first, each after a comma, and the closing bracket. -/
def compactItems : List Json → List Char
  | [] => [']']
  | item :: items => ',' :: compact item ++ compactItems items
termination_by structural items => items

/-- The members after the first, each after a comma, and the closing brace. -/
def compactFields : List (String × Json) → List Char
  | [] => ['\x7d']
  | field :: fields => ',' :: compactField field ++ compactFields fields
termination_by structural fields => fields

/-- A member: its key, a colon and its value. -/
def compactField : String × Json → List Char
  | (key, value) => stringText key ++ ':' :: compact value
termination_by structural field => field
end

/-- A line break followed by the indentation of a level, two spaces each. -/
def lineBreak (level : Nat) : List Char := '\n' :: List.replicate (2 * level) ' '

mutual
/-- The indented text of a value that starts at a level of indentation. -/
def indented (level : Nat) : Json → List Char
  | .null => ['n', 'u', 'l', 'l']
  | .bool true => ['t', 'r', 'u', 'e']
  | .bool false => ['f', 'a', 'l', 's', 'e']
  | .num n => numberText n
  | .str s => stringText s
  | .arr [] => ['[', ']']
  | .arr (item :: items) =>
    '[' :: lineBreak (level + 1) ++ indented (level + 1) item ++ indentedItems level items
  | .obj [] => ['\x7b', '\x7d']
  | .obj (field :: fields) =>
    '\x7b' :: lineBreak (level + 1) ++ indentedField (level + 1) field ++
      indentedFields level fields
termination_by structural value => value

/-- The items after the first and the closing bracket on a line of its own. -/
def indentedItems (level : Nat) : List Json → List Char
  | [] => lineBreak level ++ [']']
  | item :: items =>
    ',' :: lineBreak (level + 1) ++ indented (level + 1) item ++ indentedItems level items
termination_by structural items => items

/-- The members after the first and the closing brace on a line of its own. -/
def indentedFields (level : Nat) : List (String × Json) → List Char
  | [] => lineBreak level ++ ['\x7d']
  | field :: fields =>
    ',' :: lineBreak (level + 1) ++ indentedField (level + 1) field ++
      indentedFields level fields
termination_by structural fields => fields

/-- A member: its key, a colon, a space and its value. -/
def indentedField (level : Nat) : String × Json → List Char
  | (key, value) => stringText key ++ ':' :: ' ' :: indented level value
termination_by structural field => field
end

def render (value : Json) : String := String.ofList value.compact

def renderIndented (value : Json) : String := String.ofList (value.indented 0)

end ClusterObjects.Json
