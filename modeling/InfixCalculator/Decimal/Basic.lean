import InfixCalculator.Rounding

/-! # Decimal numbers

A decimal is a sign, a natural coefficient and an exponent of ten. The exponent belongs to it: `1.5`
and `1.50` are equal as numbers and distinct as decimals, and so are the two signs of zero.

* `Decimal.adjusted`: the exponent of the first digit.
* `Decimal.neg`, `Decimal.abs`: the sign alone changes.
* `Decimal.toDigits`: rounding to a count of significant digits. -/

namespace InfixCalculator

/-- The number `± coefficient * 10 ^ exponent`. -/
structure Decimal where
  negative : Bool
  coefficient : Nat
  exponent : Int
deriving DecidableEq, Inhabited

namespace Decimal

/-- A natural number as a decimal of exponent zero. -/
def ofNat (n : Nat) : Decimal := ⟨false, n, 0⟩

/-- The value is zero, whatever its sign and exponent. -/
def isZero (d : Decimal) : Bool := d.coefficient = 0

/-- The decimal of the opposite sign; a zero has a sign too. -/
def neg (d : Decimal) : Decimal := { d with negative := !d.negative }

/-- The decimal without a minus. -/
def abs (d : Decimal) : Decimal := { d with negative := false }

/-- The value is below zero. -/
def isBelowZero (d : Decimal) : Bool := d.negative && !d.isZero

/-- The coefficient with the sign of the decimal. -/
def signedCoefficient (d : Decimal) : Int := if d.negative then -d.coefficient else d.coefficient

/-- The exponent of the first digit; a zero has one digit. -/
def adjusted (d : Decimal) : Int := d.exponent + max 1 (digitCount 10 d.coefficient) - 1

/-- The value without its sign. -/
def magnitude (d : Decimal) : Magnitude := ⟨d.coefficient, 1, d.exponent⟩

/-- The decimal rounded to `digits` significant digits, a half going to the even neighbour; one with
no more digits is kept as it is. -/
def toDigits (digits : Nat) (d : Decimal) : Decimal :=
  let (c, e) := d.magnitude.rounded 10 digits d.exponent
  ⟨d.negative, c, e⟩

@[simp] theorem isZero_abs (d : Decimal) : d.abs.isZero = d.isZero := rfl

@[simp] theorem negative_abs (d : Decimal) : d.abs.negative = false := rfl

end Decimal

end InfixCalculator
