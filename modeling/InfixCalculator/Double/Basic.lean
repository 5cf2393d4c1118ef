import InfixCalculator.Decimal.Basic

/-! # Double precision numbers

The values of the binary format with 53 digits and exponents from `-1074` to `971`, and the way from
a decimal to the nearest one of them.

* `Double.ofDecimal`: the nearest double, a half going to the even neighbour; a decimal beyond the
  greatest double becomes infinite.
* `Double.ofBits`, `Double.toBits`: the interchange encoding. -/

namespace InfixCalculator

attribute [local instance (high)] instPowNat

/-- A double precision number; the finite ones are `± mantissa * 2 ^ exponent`. -/
inductive Double where
  | finite (negative : Bool) (mantissa : Nat) (exponent : Int)
  | infinite (negative : Bool)
  | nan
deriving DecidableEq, Inhabited

namespace Double

/-- Binary digits of a mantissa. -/
def mantissaDigits : Nat := 53

/-- The least exponent of a mantissa. -/
def leastExponent : Int := -1074

/-- The greatest exponent of a mantissa. -/
def greatestExponent : Int := 971

/-- The number is neither infinite nor undefined. -/
def isFinite : Double → Bool
  | finite .. => true
  | _ => false

/-- The number is a zero. -/
def isZero : Double → Bool
  | finite _ mantissa _ => mantissa = 0
  | _ => false

/-! ## From decimals -/

/-- The zero of a sign. -/
def zero (negative : Bool) : Double := finite negative 0 leastExponent

/-- A decimal whose first digit has an exponent above this one is beyond all doubles. -/
def decimalCeiling : Int := 310

/-- A decimal whose first digit has an exponent below this one is nearest to zero. -/
def decimalFloor : Int := -330

/-- The nearest double. -/
def ofDecimal (d : Decimal) : Double :=
  if d.isZero || d.adjusted < decimalFloor then zero d.negative
  else if decimalCeiling < d.adjusted then infinite d.negative
  else
    let x : Magnitude := ⟨d.coefficient * 10 ^ d.exponent.toNat, 10 ^ (-d.exponent).toNat, 0⟩
    let (mantissa, exponent) := x.rounded 2 mantissaDigits leastExponent
    if greatestExponent < exponent then infinite d.negative
    else finite d.negative mantissa exponent

/-! ## Encoding -/

/-- The bits of a double: sign, eleven bits of exponent, and the mantissa without the leading one
that every mantissa has unless the exponent is least. -/
def toBits : Double → UInt64
  | finite negative mantissa exponent =>
    let magnitude :=
      if mantissa < 2 ^ (52 : Nat) then mantissa
      else (exponent - leastExponent + 1).toNat * 2 ^ (52 : Nat) + (mantissa - 2 ^ (52 : Nat))
    UInt64.ofNat (if negative then 2 ^ (63 : Nat) + magnitude else magnitude)
  | infinite negative => if negative then 0xFFF0000000000000 else 0x7FF0000000000000
  | nan => 0x7FF8000000000000

/-- The double that the bits encode. -/
def ofBits (bits : UInt64) : Double :=
  let negative := decide (2 ^ (63 : Nat) ≤ bits.toNat)
  let field : Nat := bits.toNat / 2 ^ (52 : Nat) % 2 ^ (11 : Nat)
  let fraction : Nat := bits.toNat % 2 ^ (52 : Nat)
  if field = 2047 then if fraction = 0 then infinite negative else nan
  else if field = 0 then finite negative fraction leastExponent
  else finite negative (2 ^ (52 : Nat) + fraction) (leastExponent + field - 1)

end Double

end InfixCalculator
