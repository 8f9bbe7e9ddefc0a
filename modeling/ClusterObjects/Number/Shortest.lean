import ClusterObjects.Number.Double
import ClusterObjects.Text.Integer

/-! # The fewest digits that read back

Among all decimals that round to a given double, the one with the fewest digits
is found by trying grids of powers of ten from coarse to fine: if a grid point
lies in the interval of reals that round to the double, then one of the two
grid points next to the double does. Of two hits the nearer is taken, and of
two equally near ones the even one.
-/

namespace ClusterObjects

/-- A decimal `digits * 10 ^ exponent`. -/
structure Decimal where
  digits : Nat
  exponent : Int
deriving DecidableEq, Inhabited

namespace Double

/-- Whether the gap to the next smaller double is half the gap to the next larger. -/
def onBinade (d : Double) : Bool := d.fraction == 0 && 1 < d.exponentField

/-- The two factors that bring a multiple of `10 ^ grid` and a multiple of
`2 ^ unit` to the same scale. -/
def commonScale (grid unit : Int) : Nat × Nat :=
  (Nat.pow 10 grid.toNat * Nat.pow 2 (-unit).toNat,
    Nat.pow 2 unit.toNat * Nat.pow 10 (-grid).toNat)

/-- The multiple of `10 ^ grid` nearest to a nonzero double, if one rounds to it. -/
def onGrid? (d : Double) (grid : Int) : Option Nat :=
  let m := d.significand
  -- In quarters of the last place the double is `4 * m`; what rounds to it reaches
  -- two quarters up, and as far down unless the gap below is the smaller one.
  let (ten, two) := commonScale grid (d.exponent - 2)
  let middle := 4 * m * two
  let low := (4 * m - if d.onBinade then 1 else 2) * two
  let high := (4 * m + 2) * two
  let within (n : Nat) : Bool :=
    let x := n * ten
    if m % 2 = 0 then low ≤ x && x ≤ high else low < x && x < high
  let below := middle / ten
  let above := below + 1
  match within below, within above with
  | true, true =>
    let down := middle - below * ten
    let up := above * ten - middle
    if down < up then some below
    else if up < down then some above
    else some (if below % 2 = 0 then below else above)
  | true, false => some below
  | false, true => some above
  | false, false => none

/-- Try grids from coarse to fine. -/
def findGrid (d : Double) (grid : Int) : Nat → Decimal
  | 0 => ⟨d.significand, 0⟩
  | steps + 1 =>
    match d.onGrid? grid with
    | some digits => ⟨digits, grid⟩
    | none => findGrid d (grid - 1) steps

/-- The decimal with the fewest digits that rounds to a nonzero double. -/
def shortest (d : Double) : Decimal :=
  let magnitude := ((Nat.log2 d.significand : Int) + d.exponent) * 30103 / 100000
  d.findGrid (magnitude + 2) 40

/-- How doubles are written: whether a positive exponent carries a plus sign. -/
structure Style where
  plusSign : Bool
deriving DecidableEq

/-- A decimal of magnitude between `10 ^ -5` and `10 ^ 16` in positional notation,
with at least one decimal place. -/
def positional (digits : List Char) (exponent : Int) : List Char :=
  let point := (digits.length : Int) + exponent
  if 0 ≤ exponent then digits ++ List.replicate exponent.toNat '0' ++ ['.', '0']
  else if 0 < point then digits.take point.toNat ++ '.' :: digits.drop point.toNat
  else '0' :: '.' :: List.replicate (-point).toNat '0' ++ digits

/-- A decimal in scientific notation: one digit, the point and the other digits
if there are any, the mark and the exponent. -/
def scientific (style : Style) (digits : List Char) (exponent : Int) : List Char :=
  let power := (digits.length : Int) - 1 + exponent
  let mantissa := match digits with
    | first :: second :: rest => first :: '.' :: second :: rest
    | short => short
  let sign := if style.plusSign ∧ 0 ≤ power then ['+'] else []
  mantissa ++ 'e' :: sign ++ Text.signedDecimal power

/-- The text of a double: the fewest digits that read back, in positional
notation from `10 ^ -5` up to below `10 ^ 16` and scientific outside. -/
def text (style : Style) (d : Double) : List Char :=
  let sign := if d.negative then ['-'] else []
  if d.isZero then sign ++ ['0', '.', '0']
  else
    let short := d.shortest
    let digits := Text.decimal short.digits
    let power := (digits.length : Int) - 1 + short.exponent
    if -5 ≤ power ∧ power < 16 then sign ++ positional digits short.exponent
    else sign ++ scientific style digits short.exponent

end Double

end ClusterObjects
