import ClusterObjects.Time.Instant
import ClusterObjects.Text.Blank
import ClusterObjects.Text.Integer

/-! # Timestamps in RFC 3339 form

A timestamp is a date, a `T`, `t` or space, a clock time with an optional
fraction, and an offset from UTC. Reading is lenient about white space around
the numbers and about missing leading zeros, and converts to UTC; writing gives
whole seconds in UTC with four digits of the year, or a sign and more digits
for a year outside the four-digit ones, so that what is written reads back.
-/

namespace ClusterObjects.Rfc3339

/-- Why a text is no timestamp. -/
inductive ReadError where
  | tooShort
  | tooLong
  | invalid
  | outOfRange
  | impossible
deriving DecidableEq

def ReadError.message : ReadError → String
  | .tooShort => "premature end of input"
  | .tooLong => "trailing input"
  | .invalid => "input contains invalid characters"
  | .outOfRange => "input is out of range"
  | .impossible => "no possible date and time matching input"

/-- Read a run of at least one and at most `width` digits. -/
def readNumber (width : Nat) (text : List Char) : Except ReadError (Nat × List Char) :=
  let digits := (text.take width).takeWhile Char.isDigit
  match text, digits with
  | [], _ => .error .tooShort
  | _, [] => .error .invalid
  | _, _ =>
    let n := (Text.digitsFrom 0 digits).getD 0
    if n < Text.signedBound then .ok (n, text.drop digits.length) else .error .outOfRange

/-- Read a number of at most two digits, after any white space, that lies between
two bounds. -/
def readField (low high : Nat) (text : List Char) : Except ReadError (Nat × List Char) :=
  match readNumber 2 (Text.trimStart text) with
  | .error e => .error e
  | .ok (n, rest) => if low ≤ n ∧ n ≤ high then .ok (n, rest) else .error .outOfRange

/-- Read up to four digits, or a sign and any number of digits. -/
def readSigned (text : List Char) : Except ReadError (Int × List Char) :=
  match text with
  | '-' :: rest => (readNumber rest.length rest).map fun (n, rest) => (-(n : Int), rest)
  | '+' :: rest => (readNumber rest.length rest).map fun (n, rest) => ((n : Int), rest)
  | _ => (readNumber 4 text).map fun (n, rest) => ((n : Int), rest)

/-- Read a year after any white space. -/
def readYear (text : List Char) : Except ReadError (Int × List Char) :=
  match readSigned (Text.trimStart text) with
  | .error e => .error e
  | .ok (year, rest) =>
    if -0x80000000 ≤ year ∧ year < 0x80000000 then .ok (year, rest) else .error .outOfRange

/-- Read one character after any white space. -/
def readMark (mark : Char) (text : List Char) : Except ReadError (List Char) :=
  match Text.trimStart text with
  | [] => .error .tooShort
  | c :: rest => if c = mark then .ok rest else .error .invalid

/-- Read a fraction of a second as nanoseconds; digits after the ninth are skipped. -/
def readFraction (text : List Char) : Except ReadError (Nat × List Char) :=
  match text with
  | '.' :: rest =>
    match readNumber 9 rest with
    | .error e => .error e
    | .ok (n, after) =>
      let places := rest.length - after.length
      .ok (n * Nat.pow 10 (9 - places), after.dropWhile Char.isDigit)
  | _ => .ok (0, text)

/-- Read two digits whose first is at most `top`; a larger first digit is out of range. -/
def readPair (top : Nat) (text : List Char) : Except ReadError (Nat × List Char) :=
  match text with
  | a :: b :: rest =>
    match Text.digit? a, Text.digit? b with
    | some a, some b => if a ≤ top then .ok (a * 10 + b, rest) else .error .outOfRange
    | _, _ => .error .invalid
  | _ => .error .tooShort

/-- Read an offset from UTC in minutes: `Z`, or a sign, hours and minutes. -/
def readOffset (text : List Char) : Except ReadError (Int × List Char) :=
  match text with
  | [] => .error .tooShort
  | c :: rest =>
    if c = 'Z' ∨ c = 'z' then .ok (0, rest)
    else if c = '+' ∨ c = '-' ∨ c = '\u2212' then
      match readPair 9 rest with
      | .error e => .error e
      | .ok (hours, rest) =>
        match readPair 5 (rest.dropWhile fun c => c == ':' || Text.isBlank c) with
        | .error e => .error e
        | .ok (minutes, rest) =>
          let size : Int := (hours * 60 + minutes : Nat)
          .ok (if c = '+' then size else -size, rest)
    else .error .invalid

/-- Read the offset that ends a timestamp; the letters `UTC` stand for none. -/
def readZone (text : List Char) : Except ReadError (Int × List Char) :=
  let text := Text.trimStart text
  match text with
  | a :: b :: c :: rest =>
    if a.toUpper = 'U' ∧ b.toUpper = 'T' ∧ c.toUpper = 'C' then .ok (0, rest)
    else readOffset text
  | _ => readOffset text

/-- The instant in UTC that a local date and time with an offset in minutes names. -/
def shift (date : Date) (minutes : Int) : Date × Nat × Nat :=
  if minutes < 0 then
    let m := (minutes + 1440).toNat
    (date.previous, m / 60, m % 60)
  else if 1440 ≤ minutes then
    let m := (minutes - 1440).toNat
    (date.next, m / 60, m % 60)
  else (date, minutes.toNat / 60, minutes.toNat % 60)

def readText (text : List Char) : Except ReadError Instant := do
  let (year, rest) ← readYear text
  let rest ← readMark '-' rest
  let (month, rest) ← readField 1 12 rest
  let rest ← readMark '-' rest
  let (day, rest) ← readField 1 31 rest
  let rest ← match rest with
    | [] => .error .tooShort
    | c :: rest => if c = 'T' ∨ c = 't' ∨ c = ' ' then .ok rest else .error .invalid
  let (hour, rest) ← readField 0 23 rest
  let rest ← readMark ':' rest
  let (minute, rest) ← readField 0 59 rest
  let rest ← readMark ':' rest
  let (second, rest) ← readField 0 60 rest
  let (nanos, rest) ← readFraction rest
  let (offset, rest) ← readZone rest
  if !(Text.trimStart rest).isEmpty then .error .tooLong
  let date : Date := ⟨year, month, day⟩
  if !date.isValid || 1440 ≤ offset.natAbs then .error .outOfRange
  let (date, hour, minute) := shift date ((hour * 60 + minute : Nat) - offset)
  if !date.isValid then .error .impossible
  if second = 60 then .ok ⟨date, hour, minute, 59, nanos + 1000000000⟩
  else .ok ⟨date, hour, minute, second, nanos⟩

def read (text : String) : Except ReadError Instant := readText text.toList

/-- A year: four digits, or a sign and at least four digits outside that range. -/
def yearText (year : Int) : List Char :=
  if 0 ≤ year ∧ year ≤ 9999 then Text.padded 4 year.toNat
  else (if year < 0 then '-' else '+') :: Text.padded 4 year.natAbs

/-- A timestamp with whole seconds in UTC. -/
def writeText (t : Instant) : List Char :=
  let second := if t.nanos < 1000000000 then t.second else t.second + 1
  yearText t.date.year ++ '-' :: Text.padded 2 t.date.month ++ '-' :: Text.padded 2 t.date.day ++
    'T' :: Text.padded 2 t.hour ++ ':' :: Text.padded 2 t.minute ++ ':' :: Text.padded 2 second ++
    ['Z']

/-- A timestamp with whole seconds in UTC. -/
def write (t : Instant) : String := String.ofList (writeText t)

end ClusterObjects.Rfc3339
