import ClusterObjects.Json.Basic
import ClusterObjects.Text.Integer

/-! # Reading JSON texts

A recursive reader over the characters of a text. A step takes a text and gives
what it has read together with the rest; every nested value uses up at least
one character, so the length of the text bounds the recursion. An integer
literal within the ranges of 64-bit words stays an integer, every other number
becomes the nearest double. Of equal keys in one object the last counts.
-/

namespace ClusterObjects.Json

/-- Why a text is not JSON. The first case is a text that ends too early and
could still be continued. -/
inductive ReadError where
  | endOfText
  | unexpected
  | tooDeep
  | beyondRange
deriving DecidableEq

/-- The white space between tokens. -/
def isSpacing (c : Char) : Bool := c == ' ' || c == '\n' || c == '\t' || c == '\r'

/-- A text without the white space at its start. -/
def skipSpacing (text : List Char) : List Char := text.dropWhile isSpacing

def readWord : List Char → List Char → Except ReadError (List Char)
  | [], text => .ok text
  | _ :: _, [] => .error .endOfText
  | w :: word, c :: text => if w = c then readWord word text else .error .unexpected

/-- Read four hexadecimal digits. -/
def readUnit : List Char → Except ReadError (Nat × List Char)
  | a :: b :: c :: d :: rest =>
    match Text.hexDigit? a, Text.hexDigit? b, Text.hexDigit? c, Text.hexDigit? d with
    | some a, some b, some c, some d => .ok (((a * 16 + b) * 16 + c) * 16 + d, rest)
    | _, _, _, _ => .error .unexpected
  | short =>
    if short.all fun c => (Text.hexDigit? c).isSome then .error .endOfText else .error .unexpected

/-- Read the rest of a `\u` escape: one unit, or two that form a surrogate pair. -/
def readCodePoint (text : List Char) : Except ReadError (Char × List Char) :=
  match readUnit text with
  | .error e => .error e
  | .ok (high, rest) =>
    if 0xDC00 ≤ high ∧ high < 0xE000 then .error .unexpected
    else if 0xD800 ≤ high ∧ high < 0xDC00 then
      match readWord ['\\', 'u'] rest with
      | .error e => .error e
      | .ok rest =>
        match readUnit rest with
        | .error e => .error e
        | .ok (low, rest) =>
          if 0xDC00 ≤ low ∧ low < 0xE000 then
            .ok (Char.ofNat (0x10000 + (high - 0xD800) * 0x400 + (low - 0xDC00)), rest)
          else .error .unexpected
    else .ok (Char.ofNat high, rest)

/-- The character that a one-letter escape stands for. -/
def escaped? : Char → Option Char
  | '"' => some '"'
  | '\\' => some '\\'
  | '/' => some '/'
  | 'b' => some '\x08'
  | 'f' => some '\x0c'
  | 'n' => some '\n'
  | 'r' => some '\r'
  | 't' => some '\t'
  | _ => none

/-- Read a string after its opening quote, with the characters read so far in
reverse. -/
def readString (read : List Char) : Nat → List Char → Except ReadError (String × List Char)
  | 0, _ => .error .endOfText
  | _ + 1, [] => .error .endOfText
  | fuel + 1, c :: rest =>
    if c = '"' then .ok (String.ofList read.reverse, rest)
    else if c = '\\' then
      match rest with
      | [] => .error .endOfText
      | 'u' :: rest =>
        match readCodePoint rest with
        | .error e => .error e
        | .ok (d, rest) => readString (d :: read) fuel rest
      | e :: rest =>
        match escaped? e with
        | some d => readString (d :: read) fuel rest
        | none => .error .unexpected
    else if c.toNat < 32 then .error .unexpected
    else readString (c :: read) fuel rest

/-- A leading run of decimal digits and the rest. -/
def takeDigits (text : List Char) : List Char × List Char :=
  (text.takeWhile Char.isDigit, text.dropWhile Char.isDigit)

/-- A run of at least one digit. -/
def readDigits (text : List Char) : Except ReadError (List Char × List Char) :=
  match takeDigits text with
  | ([], []) => .error .endOfText
  | ([], _) => .error .unexpected
  | found => .ok found

/-- The digits after a decimal point, if there is one. -/
def readFraction : List Char → Except ReadError (Option (List Char) × List Char)
  | '.' :: rest => (readDigits rest).map fun (digits, rest) => (some digits, rest)
  | text => .ok (none, text)

/-- The value of an exponent, if there is one. -/
def readExponent : List Char → Except ReadError (Option Int × List Char)
  | c :: rest =>
    if c = 'e' ∨ c = 'E' then
      let (negative, rest) := match rest with
        | '-' :: rest => (true, rest)
        | '+' :: rest => (false, rest)
        | _ => (false, rest)
      (readDigits rest).map fun (digits, rest) =>
        let size : Int := (Text.digitsFrom 0 digits).getD 0
        (some (if negative then -size else size), rest)
    else .ok (none, c :: rest)
  | [] => .ok (none, [])

/-- The number with the given sign, digits, decimal places and exponent. -/
def number? (negative : Bool) (whole : List Char) (fraction : Option (List Char))
    (exponent : Option Int) : Option Number :=
  let double (digits : List Char) (power : Int) : Option Number :=
    (Double.ofDecimal? negative ((Text.digitsFrom 0 digits).getD 0) power).map .double
  match fraction, exponent with
  | none, none =>
    let n := (Text.digitsFrom 0 whole).getD 0
    if negative then
      if n = 0 then some (.double (Double.zero true))
      else if n ≤ Text.signedBound then some (.integer (-(n : Int)))
      else double whole 0
    else if n < Text.wordBound then some (.integer n)
    else double whole 0
  | _, _ =>
    let places := fraction.getD []
    double (whole ++ places) (exponent.getD 0 - places.length)

/-- Read a number after its sign. -/
def readNumber (negative : Bool) (text : List Char) : Except ReadError (Json × List Char) := do
  let (whole, rest) ← match text with
    | '0' :: rest =>
      match rest with
      | c :: _ => if c.isDigit then .error .unexpected else .ok (['0'], rest)
      | [] => .ok (['0'], rest)
    | _ => readDigits text
  let (fraction, rest) ← readFraction rest
  let (exponent, rest) ← readExponent rest
  match number? negative whole fraction exponent with
  | some n => .ok (.num n, rest)
  | none => .error .beyondRange

mutual
/-- Read a value, nested at most `depth` levels deep. -/
def readValue (depth : Nat) : Nat → List Char → Except ReadError (Json × List Char)
  | 0, _ => .error .endOfText
  | fuel + 1, text =>
    match skipSpacing text with
    | [] => .error .endOfText
    | 'n' :: rest => (readWord "ull".toList rest).map fun rest => (.null, rest)
    | 't' :: rest => (readWord "rue".toList rest).map fun rest => (.bool true, rest)
    | 'f' :: rest => (readWord "alse".toList rest).map fun rest => (.bool false, rest)
    | '-' :: rest => readNumber true rest
    | '"' :: rest => (readString [] fuel rest).map fun (s, rest) => (.str s, rest)
    | '[' :: rest =>
      match depth with
      | 0 => .error .tooDeep
      | depth + 1 =>
        match skipSpacing rest with
        | ']' :: rest => .ok (.arr [], rest)
        | rest => (readItems depth fuel rest).map fun (items, rest) => (.arr items, rest)
    | '\x7b' :: rest =>
      match depth with
      | 0 => .error .tooDeep
      | depth + 1 =>
        match skipSpacing rest with
        | '\x7d' :: rest => .ok (.obj [], rest)
        | rest => (readFields depth fuel rest).map fun (fields, rest) =>
            (.ofFields fields, rest)
    | c :: rest => if c.isDigit then readNumber false (c :: rest) else .error .unexpected

/-- Read the items of an array up to its closing bracket. -/
def readItems (depth : Nat) : Nat → List Char → Except ReadError (List Json × List Char)
  | 0, _ => .error .endOfText
  | fuel + 1, text => do
    let (item, rest) ← readValue depth fuel text
    match skipSpacing rest with
    | ']' :: rest => .ok ([item], rest)
    | ',' :: rest =>
      let (items, rest) ← readItems depth fuel rest
      .ok (item :: items, rest)
    | [] => .error .endOfText
    | _ => .error .unexpected

/-- Read the members of an object up to its closing brace. -/
def readFields (depth : Nat) : Nat → List Char → Except ReadError (List (String × Json) × List Char)
  | 0, _ => .error .endOfText
  | fuel + 1, text =>
    match skipSpacing text with
    | [] => .error .endOfText
    | '"' :: rest => do
      let (key, rest) ← readString [] fuel rest
      match skipSpacing rest with
      | ':' :: rest =>
        let (value, rest) ← readValue depth fuel rest
        match skipSpacing rest with
        | '\x7d' :: rest => .ok ([(key, value)], rest)
        | ',' :: rest =>
          let (fields, rest) ← readFields depth fuel rest
          .ok ((key, value) :: fields, rest)
        | [] => .error .endOfText
        | _ => .error .unexpected
      | [] => .error .endOfText
      | _ => .error .unexpected
    | _ => .error .unexpected
end

/-- The deepest nesting that a text may have. -/
def maxDepth : Nat := 127

/-- The value that a text writes, with white space around it at most. -/
def read (text : List Char) : Except ReadError Json := do
  let (value, rest) ← readValue maxDepth (2 * text.length + 2) text
  if (skipSpacing rest).isEmpty then .ok value else .error .unexpected

end ClusterObjects.Json
