import InfixCalculator.Decimal.Basic

/-! # Decimal arithmetic of bounded precision

Sums, differences, products and quotients are taken exactly and rounded once, half to even: to the
digits of the precision, or coarser where the least exponent asks for it. A result that the
precision can hold keeps its ideal exponent: the lesser one of the operands for a sum, their sum for
a product, and for a quotient the greatest possible one up to their difference.

* `Precision`: a count of digits that is not zero; `Precision.ofInt?` refuses other integers.
* `Signal`: why an operation has no result.
* `Decimal.add`, `Decimal.sub`, `Decimal.mul`, `Decimal.div`: the operations. A result whose first
  digit lies beyond `10 ^ greatestExponent` is an overflow. -/

namespace InfixCalculator

attribute [local instance (high)] instPowNat

/-! ## Precision -/

/-- The number of significant digits that a result may have. -/
structure Precision where
  digits : Nat
  digits_pos : 0 < digits

/-- Why an integer is not a precision. -/
inductive PrecisionError where
  /-- It does not fit a machine word of 64 bits. -/
  | beyondWord
  /-- It is less than one or greater than `Precision.greatest`. -/
  | outOfRange
deriving DecidableEq

namespace Precision

/-- The greatest precision. -/
def greatest : Int := 999999999999999999

/-- Twenty-eight digits. -/
def standard : Precision := ⟨28, by decide⟩

/-- The integer as a precision. -/
def ofInt? (n : Int) : Except PrecisionError Precision :=
  if n < -2 ^ (63 : Nat) ∨ 2 ^ (63 : Nat) ≤ n then .error .beyondWord
  else if h : 1 ≤ n ∧ n ≤ greatest then .ok ⟨n.toNat, by omega⟩
  else .error .outOfRange

/-- The integer as a precision, the standard one if none is given. -/
def ofOption? : Option Int → Except PrecisionError Precision
  | none => .ok standard
  | some n => ofInt? n

end Precision

/-- Why an operation has no result. -/
inductive Signal where
  /-- It is undefined: a quotient of two zeros. -/
  | invalidOperation
  /-- A decimal that is not zero was divided by zero. -/
  | divisionByZero
  /-- The result exceeds all decimals. -/
  | overflow
deriving DecidableEq

namespace Decimal

/-! ## Rounding into the range -/

/-- The greatest exponent that a first digit can have. -/
def greatestExponent : Int := 999999

/-- The least exponent that a last digit can have. -/
def leastExponent (p : Precision) : Int := -greatestExponent - (p.digits - 1)

/-- A zero, its exponent moved into the range. -/
def zeroWithin (p : Precision) (negative : Bool) (exponent : Int) : Decimal :=
  ⟨negative, 0, max (leastExponent p) (min exponent greatestExponent)⟩

/-- The magnitude rounded once into the range, with an exponent of at least `ideal`. -/
def fit (p : Precision) (negative : Bool) (x : Magnitude) (ideal : Int) : Except Signal Decimal :=
  let (c, e) := x.rounded 10 p.digits (max (leastExponent p) ideal)
  if c ≠ 0 ∧ greatestExponent < e + digitCount 10 c - 1 then .error .overflow
  else .ok ⟨negative, c, e⟩

/-! ## Sums and products -/

/-- The coefficient in units of `10 ^ exponent`, for an exponent that is at most its own. -/
def scaledTo (exponent : Int) (d : Decimal) : Int :=
  d.signedCoefficient * 10 ^ (d.exponent - exponent).toNat

/-- The sum. A sum of zero is negative only if both operands are. -/
def add (p : Precision) (a b : Decimal) : Except Signal Decimal :=
  let e := min a.exponent b.exponent
  let n := a.scaledTo e + b.scaledTo e
  if n = 0 then .ok (zeroWithin p (a.negative && b.negative) e)
  else fit p (n < 0) ⟨n.natAbs, 1, e⟩ e

/-- The difference: the sum with the opposite. -/
def sub (p : Precision) (a b : Decimal) : Except Signal Decimal := add p a b.neg

/-- The product. -/
def mul (p : Precision) (a b : Decimal) : Except Signal Decimal :=
  let negative := a.negative != b.negative
  let e := a.exponent + b.exponent
  if a.isZero || b.isZero then .ok (zeroWithin p negative e)
  else fit p negative ⟨a.coefficient * b.coefficient, 1, e⟩ e

/-! ## Quotients -/

/-- How often `p` divides `n`, for less than `2 ^ depth` times, and what remains of `n` without
these factors: first the squares are taken out, then the factor that may be left. -/
def splitFactor : Nat → Nat → Nat → Nat × Nat
  | 0, _, n => (0, n)
  | depth + 1, p, n =>
    let (squares, m) := splitFactor depth (p * p) n
    if m % p = 0 then (2 * squares + 1, m / p) else (2 * squares, m)

/-- The number of decimal places of `n / d`, if it has finitely many: the least `k` for which `d`
divides `n * 10 ^ k`. -/
def places? (n d : Nat) : Option Nat :=
  let reduced := d / Nat.gcd n d
  let depth := enoughDepth reduced
  let (twos, odd) := splitFactor depth 2 reduced
  let (fives, others) := splitFactor depth 5 odd
  if others = 1 then some (max twos fives) else none

/-- The quotient. -/
def div (p : Precision) (a b : Decimal) : Except Signal Decimal :=
  let negative := a.negative != b.negative
  let e := a.exponent - b.exponent
  if b.isZero then .error (if a.isZero then .invalidOperation else .divisionByZero)
  else if a.isZero then .ok (zeroWithin p negative e)
  else
    let ideal := match places? a.coefficient b.coefficient with
      | some k => e - k
      | none => leastExponent p
    fit p negative ⟨a.coefficient, b.coefficient, e⟩ ideal

end Decimal

end InfixCalculator
