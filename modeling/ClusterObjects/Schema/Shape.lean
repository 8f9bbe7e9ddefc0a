import ClusterObjects.Json.Printer
import ClusterObjects.Text.Base64
import ClusterObjects.Text.Quoted
import ClusterObjects.Time.Rfc3339

/-! # Shapes of typed values

A shape says which JSON values a field accepts. Decoding a value by a shape
gives its canonical form: unknown members are dropped, optional members that
are absent or null are left out, required members that are absent or null get
the empty value of their shape, and timestamps are written in UTC with whole
seconds. The members of a record are visited in key order, and the first one
that does not fit decides the error.
-/

namespace ClusterObjects

/-- The shape of a value. -/
inductive Shape where
  | text
  | bool
  | int32
  | int64
  | time
  | base64
  | mapOf (value : Shape)
  | listOf (item : Shape)
  | record (name : String) (fields : List (String × Bool × Shape))

/-- A member of a record: its key, whether it is required, and its shape. -/
abbrev Shape.Member := String × Bool × Shape

/-- A member that may be absent. -/
def Shape.optional (key : String) (shape : Shape) : Shape.Member := (key, false, shape)

/-- A member that is always present, by its empty value if need be. -/
def Shape.required (key : String) (shape : Shape) : Shape.Member := (key, true, shape)

/-- Why a value does not have a shape. -/
inductive DecodeError where
  | invalidType (found : Json) (expected : String)
  | invalidValue (found : Int) (expected : String)
  | timestamp (error : Rfc3339.ReadError)
  | encoding (fault : Text.Base64Fault)
  | unknownVariant (found : String) (expected : List String)
  | missingMember (key : String)

/-- A double in positional notation, whatever its size. -/
def Double.plainText (d : Double) : List Char :=
  let sign := if d.negative then ['-'] else []
  if d.isZero then sign ++ ['0', '.', '0']
  else sign ++ Double.positional (Text.decimal d.shortest.digits) d.shortest.exponent

/-- How an error names a value of the wrong type. -/
def Json.describe : Json → String
  | .null => "null"
  | .bool b => "boolean `" ++ (if b then "true" else "false") ++ "`"
  | .num (.integer n) => "integer `" ++ String.ofList (Text.signedDecimal n) ++ "`"
  | .num (.double d) => "floating point `" ++ String.ofList d.plainText ++ "`"
  | .str s => "string " ++ Text.quoted s
  | .arr _ => "sequence"
  | .obj _ => "map"

def DecodeError.message : DecodeError → String
  | .invalidType found expected =>
    "invalid type: " ++ found.describe ++ ", expected " ++ expected
  | .invalidValue found expected =>
    "invalid value: integer `" ++ String.ofList (Text.signedDecimal found) ++ "`, expected " ++
      expected
  | .timestamp error => error.message
  | .encoding fault => fault.message
  | .unknownVariant found expected =>
    "unknown variant `" ++ found ++ "`, expected one of " ++
      ", ".intercalate (expected.map fun name => "`" ++ name ++ "`")
  | .missingMember key => "missing field `" ++ key ++ "`"

namespace Shape

mutual
def empty : Shape → Json
  | .text | .base64 => .str ""
  | .bool => .bool false
  | .int32 | .int64 => .ofInt 0
  | .time => .str "1970-01-01T00:00:00Z"
  | .mapOf _ => .obj []
  | .listOf _ => .arr []
  | .record _ fields => .obj (emptyFields fields)
termination_by structural shape => shape

/-- The required members of a record, each with its empty value. -/
def emptyFields : List (String × Bool × Shape) → Json.Fields
  | [] => []
  | field :: fields =>
    match emptyField field with
    | some member => member :: emptyFields fields
    | none => emptyFields fields
termination_by structural fields => fields

/-- The member of an empty record for one field, if the field is required. -/
def emptyField : String × Bool × Shape → Option (String × Json)
  | (key, member) => (emptyMember member).map fun value => (key, value)
termination_by structural field => field

/-- The empty value of a required member. -/
def emptyMember : Bool × Shape → Option Json
  | (required, shape) => if required then some (empty shape) else none
termination_by structural member => member
end

/-- An integer between two bounds. -/
def decodeInteger (low high : Int) (expected : String) : Json → Except DecodeError Json
  | .num (.integer n) =>
    if low ≤ n ∧ n ≤ high then .ok (.ofInt n) else .error (.invalidValue n expected)
  | value => .error (.invalidType value expected)

/-- A timestamp in UTC with whole seconds. -/
def decodeTime : Json → Except DecodeError Json
  | .str s =>
    match Rfc3339.read s with
    | .ok instant => .ok (.str (Rfc3339.write instant))
    | .error e => .error (.timestamp e)
  | value => .error (.invalidType value "an RFC 3339 formatted date and time string")

/-- Bytes in base64; null stands for no bytes. -/
def decodeBase64 : Json → Except DecodeError Json
  | .null => .ok (.str "")
  | .str s =>
    match Text.base64Fault? s.toList with
    | none => .ok (.str s)
    | some fault => .error (.encoding fault)
  | value => .error (.invalidType value "a base64-encoded string")

/-- Decode the values of a map one after another. -/
def decodeValues (decode : Json → Except DecodeError Json) :
    Json.Fields → Except DecodeError Json.Fields
  | [] => .ok []
  | (key, value) :: rest =>
    match decode value with
    | .error e => .error e
    | .ok value =>
      match decodeValues decode rest with
      | .error e => .error e
      | .ok rest => .ok ((key, value) :: rest)

/-- Decode the items of a list one after another. -/
def decodeItems (decode : Json → Except DecodeError Json) :
    List Json → Except DecodeError (List Json)
  | [] => .ok []
  | item :: rest =>
    match decode item with
    | .error e => .error e
    | .ok item =>
      match decodeItems decode rest with
      | .error e => .error e
      | .ok rest => .ok (item :: rest)

mutual
/-- The canonical form of a value of a shape. -/
def decode : Shape → Json → Except DecodeError Json
  | .text, value =>
    match value with
    | .str s => .ok (.str s)
    | value => .error (.invalidType value "a string")
  | .bool, value =>
    match value with
    | .bool b => .ok (.bool b)
    | value => .error (.invalidType value "a boolean")
  | .int32, value => decodeInteger (-0x80000000) 0x7FFFFFFF "i32" value
  | .int64, value => decodeInteger (-0x8000000000000000) 0x7FFFFFFFFFFFFFFF "i64" value
  | .time, value => decodeTime value
  | .base64, value => decodeBase64 value
  | .mapOf shape, value =>
    match value with
    | .obj fields => (decodeValues (fun member => decode shape member) fields).map .obj
    | value => .error (.invalidType value "a map")
  | .listOf shape, value =>
    match value with
    | .arr items => (decodeItems (fun item => decode shape item) items).map .arr
    | value => .error (.invalidType value "a sequence")
  | .record name fields, value =>
    match value with
    | .obj members => (decodeFields fields members).map .obj
    | value => .error (.invalidType value name)
termination_by structural shape => shape

/-- The members of a record in canonical form, in the order of the fields. -/
def decodeFields : List (String × Bool × Shape) → Json.Fields → Except DecodeError Json.Fields
  | [], _ => .ok []
  | field :: fields, members =>
    match decodeField field members with
    | .error e => .error e
    | .ok found =>
      match decodeFields fields members with
      | .error e => .error e
      | .ok rest => .ok (found.toList ++ rest)
termination_by structural fields => fields

/-- The member of a record for one field, if there is one. -/
def decodeField : String × Bool × Shape → Json.Fields → Except DecodeError (Option (String × Json))
  | (key, member), members =>
    match decodeMember member (Entries.get? members key) with
    | .error e => .error e
    | .ok found => .ok (found.map fun value => (key, value))
termination_by structural field => field

/-- The value of a member: absent and null count the same. -/
def decodeMember : Bool × Shape → Option Json → Except DecodeError (Option Json)
  | (required, shape), found =>
    match found with
    | none | some .null => .ok (if required then some (empty shape) else none)
    | some value => (decode shape value).map some
termination_by structural member => member
end

end Shape

end ClusterObjects
