/-! # Positions in a YAML text

The rest of a text together with the column at which it starts. Indentation is
what holds block collections together, so the column of every token counts.
-/

namespace ClusterObjects.Yaml

/-- The rest of a text and its column. -/
structure Cursor where
  rest : List Char
  column : Nat
deriving DecidableEq, Inhabited

/-- Whether a character separates words on a line. -/
def isSpace (c : Char) : Bool := c == ' ' || c == '\t'

/-- Whether a text starts with white space or is at its end. -/
def startsBlank : List Char → Bool
  | [] => true
  | c :: _ => isSpace c || c == '\n'

namespace Cursor

/-- The position after a number of characters. -/
def advance : Nat → Cursor → Cursor
  | 0, cursor => cursor
  | count + 1, cursor =>
    match cursor.rest with
    | [] => cursor
    | c :: rest => advance count ⟨rest, if c = '\n' then 0 else cursor.column + 1⟩

/-- The position at which a given end of the text starts. -/
def moveTo (cursor : Cursor) (rest : List Char) : Cursor :=
  cursor.advance (cursor.rest.length - rest.length)

/-- The position after the spaces on a line. -/
def skipSpaces (cursor : Cursor) : Cursor := cursor.moveTo (cursor.rest.dropWhile isSpace)

/-- Skip white space and comments. A comment starts at a mark that stands at the
start of a line or after a space. -/
def skipFrom (inComment spaced : Bool) : List Char → Nat → Cursor
  | [], column => ⟨[], column⟩
  | c :: rest, column =>
    if c = '\n' then skipFrom false true rest 0
    else if inComment then skipFrom true true rest (column + 1)
    else if isSpace c then skipFrom false true rest (column + 1)
    else if c = '#' && spaced then skipFrom true true rest (column + 1)
    else ⟨c :: rest, column⟩

/-- The position of the next token. -/
def skipBlanks (cursor : Cursor) : Cursor :=
  skipFrom false (cursor.column == 0) cursor.rest cursor.column

/-- Whether nothing but white space and a comment is left on the line. -/
def atLineEnd (cursor : Cursor) : Bool :=
  let after := cursor.skipSpaces
  match after.rest with
  | [] => true
  | c :: _ => c == '\n' || (c == '#' && after.column != cursor.column)

def atEnd (cursor : Cursor) : Bool := cursor.rest.isEmpty

/-- Whether a mark of three characters stands alone at the start of a line. -/
def atMark (mark : Char) (cursor : Cursor) : Bool :=
  cursor.column == 0 &&
    match cursor.rest with
    | a :: b :: c :: rest => a == mark && b == mark && c == mark && startsBlank rest
    | _ => false

/-- Whether a document ends here. -/
def atBoundary (cursor : Cursor) : Bool :=
  cursor.atEnd || cursor.atMark '-' || cursor.atMark '.'

/-- Whether an entry of a block sequence starts here. -/
def atEntry (cursor : Cursor) : Bool :=
  match cursor.rest with
  | '-' :: rest => startsBlank rest
  | _ => false

end Cursor

end ClusterObjects.Yaml
