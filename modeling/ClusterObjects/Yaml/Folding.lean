import ClusterObjects.Text.Integer
import ClusterObjects.Yaml.Cursor

/-! # Scalars over several lines

Where a scalar is broken over lines, white space around the breaks does not
count: a single break becomes a space, and of several breaks all but one stay.
This holds for plain and quoted scalars and, line by line, for folded blocks;
in a literal block every break stays.
-/

namespace ClusterObjects.Yaml

/-- Why a text is not YAML that can be read. -/
inductive ReadError where
  | unfinished
  | unexpected
  | beyondRange
deriving DecidableEq

def ReadError.message : ReadError → String
  | .unfinished => "found unexpected end of stream"
  | .unexpected => "did not find expected node content"
  | .beyondRange => "JSON number out of range"

/-- What line breaks within a scalar become. -/
def foldedBreaks (breaks : Nat) : List Char :=
  if breaks = 1 then [' '] else List.replicate (breaks - 1) '\n'

/-! ## Quoted scalars -/

/-- A character of a quoted scalar, and whether it stands there unescaped. -/
abbrev Piece := Char × Bool

/-- The text of the pieces of a quoted scalar, given the white space and the number
of breaks that wait to be decided. -/
def fold (spaces : List Char) (breaks : Nat) : List Piece → List Char
  | [] => if breaks = 0 then spaces else foldedBreaks breaks
  | (c, raw) :: rest =>
    if raw && c == '\n' then fold [] (breaks + 1) rest
    else if raw && isSpace c then fold (if breaks = 0 then spaces ++ [c] else []) breaks rest
    else (if breaks = 0 then spaces else foldedBreaks breaks) ++ c :: fold [] 0 rest

/-- The pieces of a scalar in single quotes after the opening one. -/
def singleQuoted : List Char → Option (List Piece × List Char)
  | [] => none
  | '\'' :: '\'' :: rest =>
    (singleQuoted rest).map fun (pieces, rest) => (('\'', false) :: pieces, rest)
  | c :: rest =>
    if c = '\'' then some ([], rest)
    else (singleQuoted rest).map fun (pieces, rest) => ((c, true) :: pieces, rest)

/-- The character that a one-letter escape stands for. -/
def escaped? : Char → Option Char
  | '0' => some '\x00' | 'a' => some '\x07' | 'b' => some '\x08' | 't' => some '\t'
  | '\t' => some '\t' | 'n' => some '\n' | 'v' => some '\x0b' | 'f' => some '\x0c'
  | 'r' => some '\r' | 'e' => some '\x1b' | ' ' => some ' ' | '"' => some '"'
  | '/' => some '/' | '\\' => some '\\' | 'N' => some '\x85' | '_' => some '\xa0'
  | 'L' => some '\u2028' | 'P' => some '\u2029' | _ => none

/-- The number of hexadecimal digits after the letter of a numeric escape. -/
def escapeWidth? : Char → Option Nat
  | 'x' => some 2
  | 'u' => some 4
  | 'U' => some 8
  | _ => none

/-- The number that hexadecimal digits write, continued from the number already read. -/
def hexFrom (read : Nat) : List Char → Option Nat
  | [] => some read
  | c :: rest => (Text.hexDigit? c).bind fun n => hexFrom (read * 16 + n) rest

/-- The character with a code, if there is one. -/
def charOf? (code : Nat) : Option Char := if code.isValidChar then some (Char.ofNat code) else none

/-- The pieces of a scalar in double quotes after the opening one, in at most a
number of steps. -/
def doubleQuoted : Nat → List Char → Except ReadError (List Piece × List Char)
  | 0, _ | _, [] => .error .unfinished
  | _ + 1, '"' :: rest => .ok ([], rest)
  | fuel + 1, '\\' :: '\n' :: rest => doubleQuoted fuel (rest.dropWhile isSpace)
  | fuel + 1, '\\' :: e :: rest =>
    match escaped? e, escapeWidth? e with
    | some c, _ => (doubleQuoted fuel rest).map fun (pieces, rest) => ((c, false) :: pieces, rest)
    | none, some width =>
      if rest.length < width then .error .unfinished
      else
        match (hexFrom 0 (rest.take width)).bind charOf? with
        | some c =>
          (doubleQuoted fuel (rest.drop width)).map fun (pieces, rest) =>
            ((c, false) :: pieces, rest)
        | none => .error .unexpected
    | none, none => .error .unexpected
  | fuel + 1, c :: rest =>
    (doubleQuoted fuel rest).map fun (pieces, rest) => ((c, true) :: pieces, rest)

/-- The text of a quoted scalar that starts here, and the position after it. -/
def quotedScalar (cursor : Cursor) : Except ReadError (List Char × Cursor) :=
  match cursor.rest with
  | '\'' :: rest =>
    match singleQuoted rest with
    | some (pieces, rest) => .ok (fold [] 0 pieces, cursor.moveTo rest)
    | none => .error .unfinished
  | '"' :: rest =>
    (doubleQuoted rest.length rest).map fun (pieces, rest) =>
      (fold [] 0 pieces, cursor.moveTo rest)
  | _ => .error .unexpected

/-! ## Plain scalars -/

/-- Whether a character separates or closes within flow collections. -/
def isFlowIndicator (c : Char) : Bool := ",[]{}".toList.contains c

/-- Whether a character cannot start a plain scalar. -/
def isIndicator (c : Char) : Bool := ",[]{}#&*!|>'\"%@`".toList.contains c

/-- Whether a plain scalar can start here. -/
def startsPlain (flow : Bool) : List Char → Bool
  | [] => false
  | c :: rest =>
    if c == '-' || c == '?' || c == ':' then
      !startsBlank rest && !(flow && (rest.head?.map isFlowIndicator).getD false)
    else !isIndicator c

/-- The part of a plain scalar on one line, and what follows it. -/
def plainRun (flow spaced : Bool) : List Char → List Char × List Char
  | [] => ([], [])
  | c :: rest =>
    if c == '\n' || (c == ':' && startsBlank rest) || (c == '#' && spaced) ||
        (flow && (isFlowIndicator c ||
          (c == ':' && (rest.head?.map isFlowIndicator).getD false))) then
      ([], c :: rest)
    else
      let (run, rest) := plainRun flow (isSpace c) rest
      (c :: run, rest)

/-- The part of a plain scalar on one line without the spaces at its end, and the
position after it. -/
def plainLine (flow : Bool) (cursor : Cursor) : List Char × Cursor :=
  let run := (plainRun flow false cursor.rest).1
  let line := (run.reverse.dropWhile isSpace).reverse
  (line, cursor.advance line.length)

/-- The number of line breaks up to the next text, and its position. -/
def skipBreaks (breaks : Nat) : List Char → Nat → Nat × Cursor
  | [], column => (breaks, ⟨[], column⟩)
  | c :: rest, column =>
    if c = '\n' then skipBreaks (breaks + 1) rest 0
    else if isSpace c then skipBreaks breaks rest (column + 1)
    else (breaks, ⟨c :: rest, column⟩)

/-- The rest of a plain scalar on the lines that follow and are indented enough. -/
def plainMore (flow : Bool) (indent : Nat) : Nat → Cursor → List Char × Cursor
  | 0, cursor => ([], cursor)
  | fuel + 1, cursor =>
    let (breaks, next) := skipBreaks 0 cursor.rest cursor.column
    let startsComment := next.rest.head? == some '#'
    if breaks = 0 || next.atBoundary || startsComment || (!flow && next.column < indent) then
      ([], cursor)
    else
      let (line, after) := plainLine flow next
      if line.isEmpty then ([], cursor)
      else
        let (more, final) := plainMore flow indent fuel after
        (foldedBreaks breaks ++ line ++ more, final)

/-- The text of a plain scalar that starts here, and the position after it. -/
def plainScalar (flow : Bool) (indent : Nat) (cursor : Cursor) :
    Except ReadError (List Char × Cursor) :=
  if startsPlain flow cursor.rest then
    let (line, after) := plainLine flow cursor
    let (more, final) := plainMore flow indent cursor.rest.length after
    .ok (line ++ more, final)
  else .error .unexpected

/-! ## Block scalars -/

/-- What becomes of the line breaks at the end of a block scalar. -/
inductive Chomping where
  | strip
  | clip
  | keep
deriving DecidableEq

/-- The header of a block scalar: its chomping and the indentation that it states. -/
def blockHeader : List Char → Chomping × Option Nat
  | [] => (.clip, none)
  | c :: rest =>
    let (chomping, stated) := blockHeader rest
    if c = '+' then (.keep, stated)
    else if c = '-' then (.strip, stated)
    else (chomping, (Text.digit? c).or stated)

/-- The number of spaces at the start of a line. -/
def indentation (line : List Char) : Nat := (line.takeWhile (· == ' ')).length

/-- Whether a line holds spaces only. -/
def isEmptyLine (line : List Char) : Bool := line.all (· == ' ')

/-- A text cut at its line breaks. A break at the end starts no line. -/
def linesOf : List Char → List (List Char)
  | [] => []
  | c :: rest =>
    if c = '\n' then [] :: linesOf rest
    else
      match linesOf rest with
      | line :: more => (c :: line) :: more
      | [] => [[c]]

/-- A line of a block scalar with the number of empty lines after it. -/
structure BlockLine where
  text : List Char
  empties : Nat

/-- The number of empty lines at the start of some lines. -/
def leadingEmpties (lines : List (List Char)) : Nat := (lines.takeWhile List.isEmpty).length

/-- Lines without their indentation, each with the empty lines that follow it. -/
def blockLines : List (List Char) → List BlockLine
  | [] => []
  | line :: rest =>
    if line.isEmpty then blockLines rest else ⟨line, leadingEmpties rest⟩ :: blockLines rest

/-- Whether a line starts with white space, which keeps the breaks around it. -/
def startsSpaced (line : List Char) : Bool := (line.head?.map isSpace).getD false

def between (folded : Bool) (line next : BlockLine) : List Char :=
  if folded && !startsSpaced line.text && !startsSpaced next.text then
    if line.empties = 0 then [' '] else List.replicate line.empties '\n'
  else List.replicate (line.empties + 1) '\n'

/-- The lines of a block scalar in one text. -/
def joinBlock (folded : Bool) (chomping : Chomping) : List BlockLine → List Char
  | [] => []
  | [last] =>
    last.text ++ (match chomping with
      | .strip => []
      | .clip => ['\n']
      | .keep => List.replicate (last.empties + 1) '\n')
  | line :: next :: rest =>
    line.text ++ between folded line next ++ joinBlock folded chomping (next :: rest)

/-- The lines that belong to a block scalar: those indented enough, and empty ones. -/
def takeBlock (indent : Nat) (lines : List (List Char)) : List (List Char) :=
  lines.takeWhile fun line => decide (indent ≤ indentation line) || isEmptyLine line

/-- The text of a block scalar that starts here within a given indentation, and the
position after it. -/
def blockScalar (indent : Nat) (cursor : Cursor) : Except ReadError (List Char × Cursor) :=
  let folded := cursor.rest.head? == some '>'
  let marks := (cursor.rest.drop 1).takeWhile fun c => c == '+' || c == '-' || c.isDigit
  let afterHeader := cursor.advance (1 + marks.length)
  if !afterHeader.atLineEnd then .error .unexpected
  else
    let (chomping, stated) := blockHeader marks
    let body := (afterHeader.rest.dropWhile (· != '\n')).drop 1
    let lines := linesOf body
    let first := ((lines.find? fun line => !isEmptyLine line).map indentation).getD indent
    let level := match stated with
      | some n => indent - 1 + n
      | none => max first (max indent 1)
    let taken := takeBlock level lines
    let texts := taken.map (List.drop level)
    let text := List.replicate (leadingEmpties texts) '\n' ++
      joinBlock folded chomping (blockLines texts)
    let text := if (blockLines texts).isEmpty && chomping != .keep then [] else text
    let used := taken.foldl (fun used line => used + line.length + 1) 0
    .ok (text, ⟨body.drop used, 0⟩)

end ClusterObjects.Yaml
