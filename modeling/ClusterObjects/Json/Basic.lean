import ClusterObjects.Entries
import ClusterObjects.Number.Double

/-! # JSON values

The tree that objects, patches and answers are made of. An object lists its
members in ascending key order with one member per key (`Json.WellFormed`
states this for the whole tree). Equality of values (`Json.same`) is equality
of trees, except that the two zeros among the doubles are one number; an
integer never equals a double.
-/

namespace ClusterObjects

/-- A number keeps the kind of its literal: an integer or a double. -/
inductive Number where
  | integer (value : Int)
  | double (value : Double)
deriving DecidableEq, Inhabited

/-- Numerical equality within one kind of number. -/
def Number.same : Number → Number → Bool
  | .integer a, .integer b => a == b
  | .double a, .double b => a.same b
  | _, _ => false

/-- A JSON value. -/
inductive Json where
  | null
  | bool (value : Bool)
  | num (value : Number)
  | str (value : String)
  | arr (items : List Json)
  | obj (fields : List (String × Json))
deriving Inhabited

namespace Json

/-- The members of a JSON object. -/
abbrev Fields := Entries String Json

mutual
/-- Equality of values. -/
def same : Json → Json → Bool
  | .null, .null => true
  | .bool a, .bool b => a == b
  | .num a, .num b => a.same b
  | .str a, .str b => a == b
  | .arr as, .arr bs => sameItems as bs
  | .obj as, .obj bs => sameFields as bs
  | _, _ => false
termination_by structural value _ => value

/-- Equality of arrays, item by item. -/
def sameItems : List Json → List Json → Bool
  | [], [] => true
  | a :: as, b :: bs => same a b && sameItems as bs
  | _, _ => false
termination_by structural items _ => items

/-- Equality of objects, member by member. -/
def sameFields : List (String × Json) → List (String × Json) → Bool
  | [], [] => true
  | a :: as, b :: bs => sameField a b && sameFields as bs
  | _, _ => false
termination_by structural fields _ => fields

/-- Equality of members. -/
def sameField : String × Json → String × Json → Bool
  | (k, a), (l, b) => k == l && same a b
termination_by structural field _ => field
end

mutual
/-- Every object in the tree has its keys strictly ascending. -/
def WellFormed : Json → Prop
  | .arr items => WellFormedItems items
  | .obj fields => Entries.Ascending fields ∧ WellFormedFields fields
  | _ => True
termination_by structural value => value

def WellFormedItems : List Json → Prop
  | [] => True
  | item :: items => WellFormed item ∧ WellFormedItems items
termination_by structural items => items

/-- Every member is well formed. -/
def WellFormedFields : List (String × Json) → Prop
  | [] => True
  | field :: fields => WellFormedField field ∧ WellFormedFields fields
termination_by structural fields => fields

/-- The value of the member is well formed. -/
def WellFormedField : String × Json → Prop
  | (_, value) => WellFormed value
termination_by structural field => field
end

def ofInt (n : Int) : Json := .num (.integer n)

/-- A natural number as a value. -/
def ofNat (n : Nat) : Json := .num (.integer n)

/-- The object with the given members; the last member of a key counts. -/
def ofFields (fields : List (String × Json)) : Json := .obj (Entries.ofList fields)

/-- The object that maps each key to a text. -/
def ofTexts (texts : Entries String String) : Json :=
  .obj (texts.map fun (key, text) => (key, .str text))

/-- The members of an object; any other value has none. -/
def fields : Json → Fields
  | .obj fields => fields
  | _ => []

/-- The member of an object under a key. -/
def get? (value : Json) (key : String) : Option Json := value.fields.get? key

def text? : Json → Option String
  | .str text => some text
  | _ => none

/-- The text under a key of an object. -/
def textAt? (value : Json) (key : String) : Option String := (value.get? key).bind text?

def isObject : Json → Bool
  | .obj _ => true
  | _ => false

/-- An optional value, null when there is none. -/
def ofOption : Option Json → Json
  | some value => value
  | none => .null

/-- A text as a value, null when there is none. -/
def ofText? (text : Option String) : Json := ofOption (text.map .str)

end Json

end ClusterObjects
