import ClusterObjects.Json.Printer
import ClusterObjects.Text.Cut
import ClusterObjects.Text.Quoted
import ClusterObjects.Text.Blank

/-! # Paths into JSON values

A path starts at the root `$` and goes down by segments between dots. A segment
is a key, positions in brackets, or a key followed by positions; a position
below zero counts from the end of its array. A path that breaks off anywhere
has no value, and the error names the step that failed.
-/

namespace ClusterObjects.Json

/-- Why a path has no value. -/
inductive PathError where
  | missingRoot (path : String)
  | emptySegment (path : String)
  | badIndex (segment : String)
  | keyNotFound (key : String)
  | notAMapping (key : String)
  | notASequence (segment : String)
  | indexOutOfRange (index : Int)
deriving DecidableEq

def PathError.message : PathError → String
  | .missingRoot path => "path " ++ Text.quoted path ++ " must start with '$'"
  | .emptySegment path => "empty segment in path " ++ Text.quoted path
  | .badIndex segment => "malformed index in segment " ++ Text.quoted segment
  | .keyNotFound key => "key " ++ Text.quoted key ++ " not found"
  | .notAMapping key => Text.quoted key ++ " is not a mapping"
  | .notASequence segment => Text.quoted segment ++ " is not a sequence"
  | .indexOutOfRange index =>
    "index " ++ String.ofList (Text.signedDecimal index) ++ " out of range"

/-- One segment of a path: the key in front of the brackets, perhaps empty, and
the positions in them. -/
structure Segment where
  key : List Char
  positions : List Int
deriving DecidableEq

/-- The positions that a run of brackets holds. The fuel bounds the number of
brackets. -/
def positions? : Nat → List Char → Option (List Int)
  | _, [] => some []
  | 0, _ :: _ => none
  | fuel + 1, c :: rest =>
    if c = '[' then
      match Text.cut [']'] rest with
      | none => none
      | some (index, after) =>
        match Text.integer? (Text.trim index), positions? fuel after with
        | some position, some positions => some (position :: positions)
        | _, _ => none
    else none

/-- A segment split at its first bracket. -/
def segment? (text : List Char) : Option Segment :=
  let key := text.takeWhile (· ≠ '[')
  (positions? text.length (text.drop key.length)).map (⟨key, ·⟩)

def member (value : Json) (key : String) : Except PathError Json :=
  match value with
  | .obj fields =>
    match Entries.get? fields key with
    | some found => .ok found
    | none => .error (.keyNotFound key)
  | _ => .error (.notAMapping key)

/-- The item of a value at a position; the segment names a value that is no array. -/
def item (value : Json) (segment : String) (position : Int) : Except PathError Json :=
  match value with
  | .arr items =>
    let index := if position < 0 then position + items.length else position
    if index < 0 then .error (.indexOutOfRange position)
    else
      match items[index.toNat]? with
      | some found => .ok found
      | none => .error (.indexOutOfRange position)
  | _ => .error (.notASequence segment)

/-- Go down through positions one after another. -/
def itemAt (segment : String) (value : Json) : List Int → Except PathError Json
  | [] => .ok value
  | position :: positions => (item value segment position).bind (itemAt segment · positions)

/-- Go down one segment. -/
def descend (value : Json) (text : List Char) : Except PathError Json :=
  match segment? text with
  | none => .error (.badIndex (String.ofList text))
  | some segment =>
    let start :=
      if segment.key.isEmpty then .ok value else member value (String.ofList segment.key)
    start.bind fun found => itemAt (String.ofList text) found segment.positions

/-- Go down segment by segment. -/
def descendAll (value : Json) : List (List Char) → Except PathError Json
  | [] => .ok value
  | segment :: segments => (descend value segment).bind (descendAll · segments)

/-- The value at a path. One dot after the root is optional, and an empty segment
anywhere refuses the path before any step is taken. -/
def lookupAt (root : Json) (path : List Char) : Except PathError Json :=
  match path with
  | '$' :: rest =>
    if rest.isEmpty then .ok root
    else
      let body := match rest with
        | '.' :: body => body
        | _ => rest
      let segments := Text.pieces '.' body
      if segments.any List.isEmpty then .error (.emptySegment (String.ofList path))
      else descendAll root segments
  | _ => .error (.missingRoot (String.ofList path))

def lookup (root : Json) (path : String) : Except PathError Json := lookupAt root path.toList

/-- A value as the text that selectors compare: a string stands for itself, null
has a text of its own, and everything else is written in the compact form. -/
def plainText : Json → String
  | .str text => text
  | .null => "<nil>"
  | value => value.render

end ClusterObjects.Json
