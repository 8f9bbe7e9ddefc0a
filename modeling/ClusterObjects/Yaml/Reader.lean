import ClusterObjects.Json.Basic
import ClusterObjects.Yaml.Folding
import ClusterObjects.Yaml.Scalar

/-! # Reading YAML documents

A stream of documents as JSON values. Block collections are told apart by the
column of their entries: a mapping goes on as long as keys stand at its column,
a sequence as long as entries do, and a nested collection starts further to the
right (a sequence within a mapping may also start at the column of the keys).
Flow collections may be written over several lines. Plain scalars stand for
what they mean, all others for their text; the key of a member is always a text,
and of equal keys the last counts. Anchors, tags and keys that are collections
are refused.
-/

namespace ClusterObjects.Yaml

/-- A scalar: its text, and whether it is written plainly. -/
structure Scalar where
  text : List Char
  plain : Bool

def Scalar.value (scalar : Scalar) : Except ReadError Json :=
  let text : Json := .str (String.ofList scalar.text)
  if scalar.plain then
    match meaning scalar.text with
    | .null | .nonFinite => .ok .null
    | .bool b => .ok (.bool b)
    | .integer n =>
      if -(Text.signedBound : Int) ≤ n ∧ n < Text.wordBound then .ok (.ofInt n)
      else .error .beyondRange
    | .double d => .ok (.num (.double d))
    | .text => .ok text
  else .ok text

/-- Whether a quoted scalar starts here. -/
def Cursor.atQuote (cursor : Cursor) : Bool :=
  cursor.rest.head? == some '"' || cursor.rest.head? == some '\''

/-- Whether a block scalar starts here. -/
def Cursor.atBlock (cursor : Cursor) : Bool :=
  cursor.rest.head? == some '|' || cursor.rest.head? == some '>'

/-- Whether a flow collection starts here. -/
def Cursor.atFlow (cursor : Cursor) : Bool :=
  cursor.rest.head? == some '[' || cursor.rest.head? == some '\x7b'

/-! ## Flow collections -/

/-- The scalar within a flow collection that starts here. -/
def flowScalar (cursor : Cursor) : Except ReadError (Scalar × Cursor) :=
  if cursor.atQuote then (quotedScalar cursor).map fun (text, after) => (⟨text, false⟩, after)
  else (plainScalar true 0 cursor).map fun (text, after) => (⟨text, true⟩, after)

/-- Whether the value of a member follows: a colon before white space or an
indicator, or any colon after a quoted key. -/
def atColon (key : Scalar) (cursor : Cursor) : Except ReadError Bool :=
  match cursor.rest with
  | ':' :: rest =>
    if startsBlank rest || !key.plain then .ok true else .error .unexpected
  | _ => .ok false

mutual
/-- The node within a flow collection that starts here. -/
def flowNode : Nat → Cursor → Except ReadError (Json × Cursor)
  | 0, _ => .error .unfinished
  | fuel + 1, cursor =>
    match cursor.rest with
    | [] => .error .unfinished
    | '[' :: _ => (flowItems fuel (cursor.advance 1)).map fun (items, after) => (.arr items, after)
    | '\x7b' :: _ =>
      (flowMembers fuel (cursor.advance 1)).map fun (members, after) => (.ofFields members, after)
    | _ => do
      let (scalar, after) ← flowScalar cursor
      let value ← scalar.value
      .ok (value, after)

/-- The value of a member after its colon; it may be left out. -/
def flowValue : Nat → Cursor → Except ReadError (Json × Cursor)
  | 0, _ => .error .unfinished
  | fuel + 1, cursor =>
    let next := cursor.skipBlanks
    match next.rest with
    | ',' :: _ | ']' :: _ | '\x7d' :: _ => .ok (.null, next)
    | _ => flowNode fuel next

/-- An item of a flow sequence: a node, or a single member of a mapping. -/
def flowItem : Nat → Cursor → Except ReadError (Json × Cursor)
  | 0, _ => .error .unfinished
  | fuel + 1, cursor =>
    if cursor.atFlow then flowNode fuel cursor
    else do
      let (key, after) ← flowScalar cursor
      let next := after.skipBlanks
      if ← atColon key next then
        let (value, after) ← flowValue fuel (next.advance 1)
        .ok (.ofFields [(String.ofList key.text, value)], after)
      else
        let value ← key.value
        .ok (value, after)

/-- The items of a flow sequence up to its closing bracket. -/
def flowItems : Nat → Cursor → Except ReadError (List Json × Cursor)
  | 0, _ => .error .unfinished
  | fuel + 1, cursor =>
    let start := cursor.skipBlanks
    match start.rest with
    | ']' :: _ => .ok ([], start.advance 1)
    | _ => do
      let (item, after) ← flowItem fuel start
      let next := after.skipBlanks
      match next.rest with
      | ']' :: _ => .ok ([item], next.advance 1)
      | ',' :: _ =>
        let (items, final) ← flowItems fuel (next.advance 1)
        .ok (item :: items, final)
      | [] => .error .unfinished
      | _ => .error .unexpected

/-- The members of a flow mapping up to its closing brace. -/
def flowMembers : Nat → Cursor → Except ReadError (List (String × Json) × Cursor)
  | 0, _ => .error .unfinished
  | fuel + 1, cursor =>
    let start := cursor.skipBlanks
    match start.rest with
    | '\x7d' :: _ => .ok ([], start.advance 1)
    | _ => do
      let (key, after) ← flowScalar start
      let colon := after.skipBlanks
      let (value, after) ←
        if ← atColon key colon then flowValue fuel (colon.advance 1) else .ok (.null, after)
      let member := (String.ofList key.text, value)
      let next := after.skipBlanks
      match next.rest with
      | '\x7d' :: _ => .ok ([member], next.advance 1)
      | ',' :: _ =>
        let (members, final) ← flowMembers fuel (next.advance 1)
        .ok (member :: members, final)
      | [] => .error .unfinished
      | _ => .error .unexpected
end

/-! ## Block collections -/

/-- The key of a block mapping that starts here, and the position after its colon. A
key ends on the line on which it starts. -/
def blockKey? (cursor : Cursor) : Option (String × Cursor) :=
  let found : Option (List Char × Cursor) :=
    if cursor.atQuote then
      match quotedScalar cursor with
      | .ok (text, after) =>
        let used := cursor.rest.take (cursor.rest.length - after.rest.length)
        if used.contains '\n' then none else some (text, after)
      | .error _ => none
    else if startsPlain false cursor.rest then some (plainLine false cursor)
    else none
  match found with
  | none => none
  | some (text, after) =>
    let colon := after.skipSpaces
    match colon.rest with
    | ':' :: rest =>
      if startsBlank rest then some (String.ofList text, colon.advance 1) else none
    | _ => none

/-- A node that is no block collection and starts here, within an indentation. -/
def inlineNode (indent : Nat) (cursor : Cursor) : Except ReadError (Json × Cursor) := do
  let (value, after) ←
    if cursor.atFlow then flowNode (2 * cursor.rest.length + 2) cursor
    else if cursor.atQuote then
      (quotedScalar cursor).map fun (text, after) => (Json.str (String.ofList text), after)
    else if cursor.atBlock then
      (blockScalar indent cursor).map fun (text, after) => (Json.str (String.ofList text), after)
    else do
      let (text, after) ← plainScalar false indent cursor
      let value ← Scalar.value ⟨text, true⟩
      .ok (value, after)
  if after.atLineEnd then .ok (value, after)
  else if after.column = 0 then .ok (value, after)
  else .error .unexpected

mutual
/-- The node that starts here, within an indentation. -/
def blockNode : Nat → Nat → Cursor → Except ReadError (Json × Cursor)
  | 0, _, _ => .error .unfinished
  | fuel + 1, indent, cursor =>
    if cursor.atEntry then
      (blockItems fuel cursor.column cursor).map fun (items, after) => (.arr items, after)
    else if (blockKey? cursor).isSome then
      (blockMembers fuel cursor.column cursor).map fun (members, after) =>
        (.ofFields members, after)
    else inlineNode indent cursor

/-- The node after an entry mark or on the lines after a key; nothing counts as null. -/
def nestedNode : Nat → Nat → Bool → Cursor → Except ReadError (Json × Cursor)
  | 0, _, _, _ => .error .unfinished
  | fuel + 1, column, inMapping, cursor =>
    let next := cursor.skipBlanks
    if next.atBoundary then .ok (.null, next)
    else if column < next.column || (inMapping && next.column == column && next.atEntry) then
      blockNode fuel (column + 1) next
    else .ok (.null, next)

/-- The items of a block sequence whose entries stand at a column. -/
def blockItems : Nat → Nat → Cursor → Except ReadError (List Json × Cursor)
  | 0, _, _ => .error .unfinished
  | fuel + 1, column, cursor => do
    let (item, after) ← nestedNode fuel column false (cursor.advance 1)
    let next := after.skipBlanks
    if next.atBoundary || next.column < column then .ok ([item], next)
    else if next.column = column then
      if next.atEntry then
        let (items, final) ← blockItems fuel column next
        .ok (item :: items, final)
      else .ok ([item], next)
    else .error .unexpected

/-- The members of a block mapping whose keys stand at a column. -/
def blockMembers : Nat → Nat → Cursor → Except ReadError (List (String × Json) × Cursor)
  | 0, _, _ => .error .unfinished
  | fuel + 1, column, cursor =>
    match blockKey? cursor with
    | none => .error .unexpected
    | some (key, colon) => do
      let (value, after) ←
        if colon.atLineEnd then nestedNode fuel column true colon
        else inlineNode (column + 1) colon.skipSpaces
      let next := after.skipBlanks
      if next.atBoundary || next.column < column then .ok ([(key, value)], next)
      else if next.column = column then
        let (members, final) ← blockMembers fuel column next
        .ok ((key, value) :: members, final)
      else .error .unexpected
end

/-! ## Documents -/

/-- The documents of a stream, in at most a number of steps. -/
def documentsFrom : Nat → Cursor → Except ReadError (List Json)
  | 0, _ => .error .unfinished
  | fuel + 1, cursor =>
    let start := cursor.skipBlanks
    if start.atEnd then .ok []
    else if start.column == 0 && start.rest.head? == some '%' then
      documentsFrom fuel ⟨start.rest.dropWhile (· != '\n'), 1⟩
    else if start.atMark '.' then documentsFrom fuel (start.advance 3)
    else do
      let explicit := start.atMark '-'
      let body := if explicit then (start.advance 3).skipBlanks else start
      let (value, after) ←
        if body.atBoundary then .ok (.null, body) else blockNode (4 * body.rest.length + 4) 0 body
      let next := after.skipBlanks
      if next.atBoundary then
        let rest ← documentsFrom fuel next
        .ok (value :: rest)
      else .error .unexpected

/-- A text with every line break written as a single character. -/
def normalize : List Char → List Char
  | [] => []
  | '\r' :: '\n' :: rest => '\n' :: normalize rest
  | c :: rest => (if c = '\r' then '\n' else c) :: normalize rest

def documents (text : String) : Except ReadError (List Json) :=
  let chars := normalize text.toList
  documentsFrom (chars.length + 1) ⟨chars, 0⟩

end ClusterObjects.Yaml
