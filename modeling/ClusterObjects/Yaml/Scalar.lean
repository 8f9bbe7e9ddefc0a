import ClusterObjects.Json.Basic
import ClusterObjects.Text.Integer

/-! # Plain scalars

What a YAML scalar without quotes stands for: nothing, a truth value, an
integer, a double, or its own text. Integers may be written in the usual four
bases; a decimal with a needless leading zero is a text.
-/

namespace ClusterObjects.Yaml

/-- What a plain scalar stands for. -/
inductive Meaning where
  | null
  | bool (value : Bool)
  | integer (value : Int)
  | double (value : Double)
  | nonFinite
  | text
deriving DecidableEq

def digitIn? (base : Nat) (c : Char) : Option Nat :=
  (Text.hexDigit? c).filter fun n => decide (n < base)

/-- The number that digits in a base write, continued from the number already read. -/
def digitsFrom (base read : Nat) : List Char → Option Nat
  | [] => some read
  | c :: rest =>
    match digitIn? base c with
    | some n => digitsFrom base (read * base + n) rest
    | none => none

/-- The number that a nonempty text of digits in a base writes. -/
def digits? (base : Nat) : List Char → Option Nat
  | [] => none
  | text => digitsFrom base 0 text

/-- The number after a mark of its base. -/
def marked? : List Char → Option Nat
  | '0' :: 'x' :: rest => digits? 16 rest
  | '0' :: 'o' :: rest => digits? 8 rest
  | '0' :: 'b' :: rest => digits? 2 rest
  | _ => none

/-- Whether a text is a decimal with a needless leading zero. -/
def hasLeadingZero (text : List Char) : Bool :=
  let digits := match text with
    | '-' :: rest => rest
    | '+' :: rest => rest
    | _ => text
  match digits with
  | '0' :: next :: rest => (next :: rest).all Char.isDigit
  | _ => false

/-- The magnitude that a text without a sign writes. -/
def magnitude? (text : List Char) : Option Nat :=
  (marked? text).or (if hasLeadingZero text then none else digits? 10 text)

/-- The least number that a 128-bit word cannot hold. -/
def longBound : Nat := Text.wordBound * Text.wordBound

/-- The integer that a text writes, within the ranges of 128-bit words. -/
def integer? (text : List Char) : Option Int :=
  match text with
  | '-' :: rest =>
    match magnitude? rest with
    | some n => if n ≤ longBound / 2 then some (-(n : Int)) else none
    | none => none
  | '+' :: rest =>
    match magnitude? rest with
    | some n => if n < longBound then some (n : Int) else none
    | none => none
  | _ =>
    match magnitude? text with
    | some n => if n < longBound then some (n : Int) else none
    | none => none

/-- The exponent of a decimal after its mark. -/
def exponent? : List Char → Option Int
  | '-' :: rest => (Text.digits? rest).map fun n => -(n : Int)
  | '+' :: rest => (Text.digits? rest).map fun n => (n : Int)
  | text => (Text.digits? text).map fun n => (n : Int)

/-- The finite double that a decimal writes: digits with a point among them, before
them, after them or not at all, and perhaps an exponent. -/
def decimal? (negative : Bool) (text : List Char) : Option Double :=
  let whole := text.takeWhile Char.isDigit
  let rest := text.dropWhile Char.isDigit
  let (places, rest) := match rest with
    | '.' :: rest => (rest.takeWhile Char.isDigit, rest.dropWhile Char.isDigit)
    | _ => ([], rest)
  let exponent := match rest with
    | [] => some 0
    | c :: rest => if c = 'e' ∨ c = 'E' then exponent? rest else none
  match Text.digits? (whole ++ places), exponent with
  | some digits, some exponent =>
    Double.ofDecimal? negative digits (exponent - places.length)
  | _, _ => none

/-- The finite double that a text writes. -/
def double? : List Char → Option Double
  | '-' :: rest => decimal? true rest
  | '+' :: rest => decimal? false rest
  | text => decimal? false text

/-- The texts that stand for nothing. -/
def nullTexts : List String := ["", "~", "null", "Null", "NULL"]

/-- The texts that stand for the infinities and for what is no number. -/
def nonFiniteTexts : List String :=
  [".inf", ".Inf", ".INF", "+.inf", "+.Inf", "+.INF", "-.inf", "-.Inf", "-.INF",
    ".nan", ".NaN", ".NAN"]

/-- What a plain scalar stands for. -/
def meaning (text : List Char) : Meaning :=
  let word := String.ofList text
  if nullTexts.contains word then .null
  else if ["true", "True", "TRUE"].contains word then .bool true
  else if ["false", "False", "FALSE"].contains word then .bool false
  else
    match integer? text with
    | some n => .integer n
    | none =>
      if hasLeadingZero text then .text
      else if nonFiniteTexts.contains word then .nonFinite
      else
        match double? text with
        | some d => .double d
        | none => .text

example : meaning "0x1F".toList = .integer 31 := by decide

example : meaning "007".toList = .text := by decide

end ClusterObjects.Yaml
