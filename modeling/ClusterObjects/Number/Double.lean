/-! # Double-precision numbers

A double is the 64 bits of its IEEE 754 encoding: a sign, eleven bits of
exponent and fifty-two bits of fraction. Its magnitude is exactly
`significand * 2 ^ exponent`. The module reads a decimal to the nearest double
in exact integer arithmetic, ties going to the even significand.
-/

namespace ClusterObjects

/-- A finite double-precision number, as the bits of its encoding. -/
structure Double where
  bits : UInt64
deriving DecidableEq, Inhabited

namespace Double

/-- Whether the sign bit is set. -/
def negative (d : Double) : Bool := d.bits >>> 63 == 1

/-- The eleven bits of the biased exponent. -/
def exponentField (d : Double) : Nat := ((d.bits >>> 52) &&& 0x7FF).toNat

/-- The fifty-two bits of the fraction. -/
def fraction (d : Double) : Nat := (d.bits &&& 0xFFFFFFFFFFFFF).toNat

/-- The weight of the bit above the fraction, which a normal number has set and does
not store. -/
def hiddenBit : Nat := 0x10000000000000

/-- The integer that the magnitude counts in units of `2 ^ exponent`. -/
def significand (d : Double) : Nat :=
  if d.exponentField = 0 then d.fraction else d.fraction + hiddenBit

/-- The power of two that the magnitude is counted in. -/
def exponent (d : Double) : Int :=
  if d.exponentField = 0 then -1074 else (d.exponentField : Int) - 1075

def isZero (d : Double) : Bool := d.exponentField == 0 && d.fraction == 0

/-- Numerical equality: the two zeros are the same number, and any other number
is the same only as itself. -/
def same (left right : Double) : Bool :=
  left.bits == right.bits || (left.isZero && right.isZero)

/-- The zero of the given sign. -/
def zero (negative : Bool) : Double := ⟨if negative then 0x8000000000000000 else 0⟩

/-- The quotient rounded to the nearest integer, a half to the even neighbour. -/
def roundDiv (num den : Nat) : Nat :=
  let whole := num / den
  let rest := num % den
  if 2 * rest < den then whole
  else if den < 2 * rest then whole + 1
  else whole + whole % 2

/-- The value `num / den` in units of `2 ^ unit`, as a quotient of naturals. -/
def inUnits (num den : Nat) (unit : Int) : Nat × Nat :=
  if 0 ≤ unit then (num, den * Nat.pow 2 unit.toNat) else (num * Nat.pow 2 (-unit).toNat, den)

/-- The encoding of a positive quotient, rounded to nearest; nothing beyond the
largest double. -/
def encodeQuotient? (num den : Nat) : Option Nat :=
  let scale : Int := (Nat.log2 num : Int) - (Nat.log2 den : Int)
  let guess := max (scale - 53) (-1074)
  -- The guess leaves 53 or 54 bits; one bit too many is dropped before rounding.
  let (n, d) := inUnits num den guess
  let unit := if n / d < 2 * hiddenBit then guess else guess + 1
  let (n, d) := inUnits num den unit
  let count := roundDiv n d
  -- A count that rounding has carried to the next power of two raises the exponent.
  let bits :=
    if count < hiddenBit then count
    else (unit + 1075).toNat * hiddenBit + (count - hiddenBit)
  if bits < 0x7FF0000000000000 then some bits else none

/-- The double nearest to `digits * 10 ^ exponent`; nothing if that lies beyond
the largest double. Exponents far outside the range are decided by size alone. -/
def ofDecimal? (negative : Bool) (digits : Nat) (exponent : Int) : Option Double :=
  let sign : UInt64 := if negative then 0x8000000000000000 else 0
  let magnitude := ((Nat.log2 digits : Int) * 30103) / 100000 + exponent
  if digits = 0 ∨ magnitude < -400 then some ⟨sign⟩
  else if 400 < magnitude then none
  else
    let quotient :=
      if 0 ≤ exponent then (digits * Nat.pow 10 exponent.toNat, 1)
      else (digits, Nat.pow 10 (-exponent).toNat)
    (encodeQuotient? quotient.1 quotient.2).map fun bits => ⟨sign + UInt64.ofNat bits⟩

end Double

end ClusterObjects
