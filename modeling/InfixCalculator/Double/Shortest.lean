import InfixCalculator.Double.Basic

/-! # The shortest decimal of a double

Among all decimals that are nearest to a given double, the ones with the fewest digits are shortest,
and of these the one that comes closest to the double stands for it.

* `Double.Interval`: the numbers that are nearest to a double: everything between the midpoints to
  its neighbours, the midpoints included if the mantissa is even.
* `Double.shortest`: the decimal, searched for on ever finer grids of powers of ten.
* `Double.toDecimal?`: the decimal that stands for a finite double; a whole number below `10 ^ 16`
  has the exponent zero. -/

namespace InfixCalculator

attribute [local instance (high)] instPowNat

namespace Double

/-- An interval around a double, in quarters of the unit `2 ^ exponent` of its mantissa. -/
structure Interval where
  exponent : Int
  /-- The lower midpoint. -/
  low : Nat
  /-- The double itself. -/
  middle : Nat
  /-- The upper midpoint. -/
  high : Nat
  /-- The midpoints belong to the interval. -/
  closed : Bool

namespace Interval

/-- The numbers nearest to `mantissa * 2 ^ exponent`. The lower neighbour is half as far away where
the mantissa is the least one of its exponent. -/
def of (mantissa : Nat) (exponent : Int) : Interval :=
  { exponent
    low := if mantissa = 2 ^ (52 : Nat) ∧ leastExponent < exponent then 4 * mantissa - 1
      else 4 * mantissa - 2
    middle := 4 * mantissa
    high := 4 * mantissa + 2
    closed := mantissa % 2 = 0 }

/-- The two sides of a comparison between `quarters` of the interval's unit and `n * 10 ^ grid`,
both multiplied by powers of two and ten until they are integers. -/
def sides (i : Interval) (grid : Int) (quarters n : Nat) : Nat × Nat :=
  (quarters * 2 ^ (i.exponent - 2).toNat * 10 ^ (-grid).toNat,
    n * 10 ^ grid.toNat * 2 ^ (2 - i.exponent).toNat)

/-- The number `n * 10 ^ grid` belongs to the interval. -/
def contains (i : Interval) (grid : Int) (n : Nat) : Bool :=
  let (low, point) := i.sides grid i.low n
  let (high, _) := i.sides grid i.high n
  if i.closed then low ≤ point && point ≤ high else low < point && point < high

/-- The multiples of `10 ^ grid` next to the double, below and above it. -/
def neighbours (i : Interval) (grid : Int) : Nat × Nat :=
  let (middle, unit) := i.sides grid i.middle 1
  (middle / unit, middle / unit + 1)

/-- The multiple of `10 ^ grid` in the interval that is nearest to the double, if there is one. -/
def onGrid? (i : Interval) (grid : Int) : Option Nat :=
  let (below, above) := i.neighbours grid
  match i.contains grid below, i.contains grid above with
  | true, true =>
    let (middle, unit) := i.sides grid i.middle 1
    some (nearest middle unit)
  | true, false => some below
  | false, true => some above
  | false, false => none

end Interval

/-- Enough digits to tell any two doubles apart. -/
def enoughDigits : Nat := 17

/-- Coefficient and exponent without the zeros at the end of the coefficient; at most `places` of
them are dropped. -/
def dropZeros : Nat → Nat → Int → Nat × Int
  | 0, c, e => (c, e)
  | places + 1, c, e => if c % 10 = 0 ∧ c ≠ 0 then dropZeros places (c / 10) (e + 1) else (c, e)

/-- The shortest decimal that is nearest to `mantissa * 2 ^ exponent`, as coefficient and
exponent. -/
def shortest (mantissa : Nat) (exponent : Int) : Nat × Int :=
  let i := Interval.of mantissa exponent
  let first : Int :=
    (Magnitude.mk (mantissa * 2 ^ exponent.toNat) (2 ^ (-exponent).toNat) 0).order 10
  let found := (List.range enoughDigits).findSome? fun (more : Nat) =>
    let grid := first - more
    (i.onGrid? grid).map fun n => (n, grid)
  match found with
  | some (c, e) => dropZeros enoughDigits c e
  | none => (0, 0)

/-- Whole numbers with no more digits before the point than this are written out. -/
def wholeDigits : Nat := 16

/-- The decimal that stands for a finite double. -/
def toDecimal? : Double → Option Decimal
  | finite negative mantissa exponent =>
    if mantissa = 0 then some ⟨negative, 0, 0⟩
    else
      let (c, e) := shortest mantissa exponent
      if 0 ≤ e ∧ digitCount 10 c + e ≤ wholeDigits then some ⟨negative, c * 10 ^ e.toNat, 0⟩
      else some ⟨negative, c, e⟩
  | _ => none

end Double

end InfixCalculator
