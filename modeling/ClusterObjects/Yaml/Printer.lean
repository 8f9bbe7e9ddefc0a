import ClusterObjects.Number.Shortest
import ClusterObjects.Yaml.Scalar

/-! # Writing YAML

A value as one document in block style. A text is written plainly if it reads
back as itself, in single quotes if it would read as something else, as a
literal block if it has several lines, and in double quotes if it holds
characters that cannot be shown.
-/

namespace ClusterObjects.Yaml

/-- Doubles in YAML texts show no sign of a positive exponent. -/
def numberStyle : Double.Style := ⟨false⟩

/-! ## Characters -/

/-- Whether a character can be shown as itself. -/
def isPrintable (c : Char) : Bool :=
  let n := c.toNat
  n == 0x0A || (0x20 ≤ n && n ≤ 0x7E) ||
    (0xA0 ≤ n && n ≤ 0xFFFD && n != 0xFEFF) || 0x10000 ≤ n

/-- Whether a character ends a line. -/
def isBreak (c : Char) : Bool :=
  c == '\n' || c == '\r' || c == '\x85' || c == '\u2028' || c == '\u2029'

/-- Whether a character is white space or ends a line. -/
def isSeparator (c : Char) : Bool := c == ' ' || c == '\t' || isBreak c || c.toNat == 0

/-- Whether a text is at its end or starts with white space. -/
def startsSeparated : List Char → Bool
  | [] => true
  | c :: _ => isSeparator c

/-- Whether two neighbours of a text are as given. -/
def hasNeighbours (first second : Char → Bool) : List Char → Bool
  | a :: b :: rest => (first a && second b) || hasNeighbours first second (b :: rest)
  | _ => false

/-! ## Which style a text allows -/

/-- Whether a plain text would be cut short: at a colon before white space, or at a
comment mark after it. -/
def isCutShort (afterSpace : Bool) : List Char → Bool
  | [] => false
  | c :: rest =>
    (c == ':' && startsSeparated rest) || (c == '#' && afterSpace) ||
      isCutShort (isSeparator c) rest

/-- Whether the start of a text would be taken for an indicator. -/
def startsIndicator (text : List Char) : Bool :=
  match text with
  | [] => false
  | c :: rest =>
    ",[]{}#&*!|>'\"%@`".toList.contains c ||
      ((c == '?' || c == ':' || c == '-') && startsSeparated rest) ||
      "---".toList.isPrefixOf text || "...".toList.isPrefixOf text

/-- Whether a text can stand plainly. -/
def allowsPlain (text : List Char) : Bool :=
  text.all (fun c => isPrintable c && !isBreak c) && text.head? != some ' ' &&
    text.getLast? != some ' ' && !startsIndicator text && !isCutShort true text

/-- Whether a text can stand between single quotes. -/
def allowsSingle (text : List Char) : Bool :=
  text.all isPrintable && !hasNeighbours isBreak (· == ' ') text &&
    !hasNeighbours (· == ' ') isBreak text

/-- Whether a text can stand as a literal block. -/
def allowsLiteral (text : List Char) : Bool :=
  text.all isPrintable && text.getLast? != some ' ' && !hasNeighbours (· == ' ') isBreak text

/-- The words that were truth values in an earlier version of YAML. -/
def formerBools : List String :=
  ["y", "Y", "yes", "Yes", "YES", "n", "N", "no", "No", "NO", "on", "On", "ON", "off", "Off", "OFF"]

/-- Whether a text would read as something else than itself. -/
def isAmbiguous (text : List Char) : Bool :=
  meaning text != .text || hasLeadingZero text || formerBools.contains (String.ofList text)

/-! ## Texts -/

def spaces (column : Nat) : List Char := List.replicate column ' '

/-- A text within single quotes; a line that follows a break within it is indented. -/
def singleBody (indent : Nat) (afterBreak : Bool) : List Char → List Char
  | [] => if afterBreak then spaces indent else []
  | c :: rest =>
    if isBreak c then c :: singleBody indent true rest
    else
      (if afterBreak then spaces indent else []) ++
        (if c = '\'' then ['\'', '\''] else [c]) ++ singleBody indent false rest

/-- Upper-case hexadecimal digits padded with zeros to a width. -/
def paddedHex (width n : Nat) : List Char :=
  (Text.paddedHexadecimal width n).map Char.toUpper

/-- How one character is written between double quotes. -/
def escapeChar (c : Char) : List Char :=
  let n := c.toNat
  if c = '"' then ['\\', '"']
  else if c = '\\' then ['\\', '\\']
  else if isPrintable c && !isBreak c then [c]
  else if n = 0 then ['\\', '0']
  else if n = 7 then ['\\', 'a']
  else if n = 8 then ['\\', 'b']
  else if n = 9 then ['\\', 't']
  else if n = 10 then ['\\', 'n']
  else if n = 11 then ['\\', 'v']
  else if n = 12 then ['\\', 'f']
  else if n = 13 then ['\\', 'r']
  else if n = 27 then ['\\', 'e']
  else if n = 0x85 then ['\\', 'N']
  else if n = 0x2028 then ['\\', 'L']
  else if n = 0x2029 then ['\\', 'P']
  else if n < 0x100 then '\\' :: 'x' :: paddedHex 2 n
  else if n < 0x10000 then '\\' :: 'u' :: paddedHex 4 n
  else '\\' :: 'U' :: paddedHex 8 n

def doubleText (text : List Char) : List Char := '"' :: text.flatMap escapeChar ++ ['"']

/-- A text on one line, within an indentation. -/
def inlineText (indent : Nat) (text : List Char) : List Char :=
  if !isAmbiguous text && allowsPlain text then text
  else if allowsSingle text then '\'' :: singleBody indent false text ++ ['\'']
  else doubleText text

/-- The lines of a literal block; empty lines are not indented. -/
def literalBody (indent : Nat) (afterBreak : Bool) : List Char → List Char
  | [] => []
  | c :: rest =>
    if isBreak c then c :: literalBody indent true rest
    else (if afterBreak then spaces indent else []) ++ c :: literalBody indent false rest

/-- The header of a literal block: the indentation if the text starts with white
space, and what becomes of the breaks at its end. -/
def literalHeader (text : List Char) : List Char :=
  let stated := if (text.head?.map fun c => c == ' ' || isBreak c).getD false then ['2'] else []
  let chomping := match text.reverse with
    | last :: rest =>
      if !isBreak last then ['-']
      else if (rest.head?.map isBreak).getD true then ['+']
      else []
    | [] => ['-']
  '|' :: stated ++ chomping

/-- A text as the value of a member or an item, up to the end of its last line. -/
def textNode (indent : Nat) (text : List Char) : List Char :=
  if text.contains '\n' then
    if allowsLiteral text then
      literalHeader text ++ '\n' :: literalBody indent true text ++
        (if (text.getLast?.map isBreak).getD false then [] else ['\n'])
    else doubleText text ++ ['\n']
  else inlineText indent text ++ ['\n']

def keyText (key : List Char) : List Char :=
  if key.contains '\n' then doubleText key else inlineText 0 key

/-! ## Nodes -/

mutual
/-- A value after the mark of its item, at a column. -/
def item (column : Nat) : Json → List Char
  | .null => "null\n".toList
  | .bool true => "true\n".toList
  | .bool false => "false\n".toList
  | .num (.integer n) => Text.signedDecimal n ++ ['\n']
  | .num (.double d) => d.text numberStyle ++ ['\n']
  | .str s => textNode column s.toList
  | .arr [] => "[]\n".toList
  | .arr (first :: rest) => '-' :: ' ' :: item (column + 2) first ++ items column rest
  | .obj [] => "{}\n".toList
  | .obj (first :: rest) => member column first ++ members column rest
termination_by structural value => value

/-- The items of a sequence, each on a line of its own at a column. -/
def items (column : Nat) : List Json → List Char
  | [] => []
  | first :: rest => spaces column ++ '-' :: ' ' :: item (column + 2) first ++ items column rest
termination_by structural values => values

/-- The members of a mapping, each on a line of its own at a column. -/
def members (column : Nat) : List (String × Json) → List Char
  | [] => []
  | first :: rest => spaces column ++ member column first ++ members column rest
termination_by structural fields => fields

/-- A member of a mapping whose keys stand at a column. -/
def member (column : Nat) : String × Json → List Char
  | (key, value) => keyText key.toList ++ ':' :: memberValue column value
termination_by structural field => field

/-- A value after the colon of its key. -/
def memberValue (column : Nat) : Json → List Char
  | .null => " null\n".toList
  | .bool true => " true\n".toList
  | .bool false => " false\n".toList
  | .num (.integer n) => ' ' :: Text.signedDecimal n ++ ['\n']
  | .num (.double d) => ' ' :: d.text numberStyle ++ ['\n']
  | .str s => ' ' :: textNode (column + 2) s.toList
  | .arr [] => " []\n".toList
  | .arr (first :: rest) =>
    '\n' :: spaces column ++ '-' :: ' ' :: item (column + 2) first ++ items column rest
  | .obj [] => " {}\n".toList
  | .obj (first :: rest) =>
    '\n' :: spaces (column + 2) ++ member (column + 2) first ++ members (column + 2) rest
termination_by structural value => value
end

mutual
/-- The text that is written last in a value, if a text is. -/
def lastText? : Json → Option String
  | .str s => some s
  | .arr items => lastItem? items
  | .obj fields => lastMember? fields
  | _ => none
termination_by structural value => value

/-- The text that is written last in the items of a sequence. -/
def lastItem? : List Json → Option String
  | [] => none
  | [last] => lastText? last
  | _ :: rest => lastItem? rest
termination_by structural values => values

/-- The text that is written last in the members of a mapping. -/
def lastMember? : List (String × Json) → Option String
  | [] => none
  | [last] => lastValue? last
  | _ :: rest => lastMember? rest
termination_by structural fields => fields

/-- The text that is written last in a member. -/
def lastValue? : String × Json → Option String
  | (_, value) => lastText? value
termination_by structural field => field
end

/-- Whether a document ends in a block whose final breaks all count, so that its end
must be marked. -/
def endsOpen (value : Json) : Bool :=
  match lastText? value with
  | some text =>
    text.toList.contains '\n' && allowsLiteral text.toList &&
      (literalHeader text.toList).contains '+'
  | none => false

def render (value : Json) : String :=
  String.ofList (item 0 value ++ if endsOpen value then "...\n".toList else [])

end ClusterObjects.Yaml
