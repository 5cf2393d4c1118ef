import InfixCalculator.Decimal.Basic
import InfixCalculator.Text.Integer

/-! # Decimal notation

* `Decimal.plain`: digits and a point, never an exponent.
* `Decimal.general`: plain notation as long as the exponent is not positive and at most five zeros
  follow the point before the first digit; else one digit before the point and an exponent.
* `Decimal.toText`: the general notation that keeps coefficient and exponent apart, with a capital
  `E`; `Decimal.ofText?` reads it.
* `Decimal.ofPlain?`: reads digits of any script around at most one point, exactly. -/

namespace InfixCalculator

namespace Decimal

open Text

/-! ## Writing -/

/-- The minus of a negative decimal, of a negative zero too. -/
def signText (d : Decimal) : List Char := if d.negative then ['-'] else []

/-- The digits with a point before the last `places`; zeros fill the front up to one digit before
the point. -/
def pointed (digits : List Char) (places : Nat) : List Char :=
  if places = 0 then digits
  else
    let filled := List.replicate (places + 1 - digits.length) '0' ++ digits
    filled.take (filled.length - places) ++ '.' :: filled.drop (filled.length - places)

/-- Plain notation: every digit in its place, and no exponent. -/
def plain (d : Decimal) : List Char :=
  let digits := numeral d.coefficient
  d.signText ++
    if d.exponent ≤ 0 then pointed digits (-d.exponent).toNat
    else if d.isZero then digits
    else digits ++ List.replicate d.exponent.toNat '0'

/-- An exponent with its sign, behind its mark. -/
def exponentText (mark : Char) (n : Int) : List Char :=
  mark :: (if n < 0 then '-' else '+') :: numeral n.natAbs

/-- Scientific notation: one digit, a point before the others if there are any, and the exponent. -/
def scientific (mark : Char) (d : Decimal) : List Char :=
  let digits := numeral d.coefficient
  d.signText ++ digits.take 1 ++ (if digits.length ≤ 1 then [] else '.' :: digits.drop 1) ++
    exponentText mark d.adjusted

/-- The decimal is written without an exponent in general notation. -/
def isPositional (d : Decimal) : Bool := d.exponent ≤ 0 && -6 ≤ d.adjusted

/-- General notation: plain where `isPositional` allows it, else scientific. -/
def general (mark : Char) (d : Decimal) : List Char :=
  if d.isPositional then d.plain else d.scientific mark

/-- The text from which sign, coefficient and exponent can be read. -/
def toText (d : Decimal) : List Char := d.general 'E'

/-! ## Reading -/

/-- The unsigned decimal that digits around at most one point denote; `none` if there is no digit, a
digit without a value, a second point or any other character. -/
def ofPlain? (text : List Char) : Option Decimal :=
  let whole := text.takeWhile (· ≠ '.')
  let fraction := (text.dropWhile (· ≠ '.')).drop 1
  if whole = [] ∧ fraction = [] then none
  else ((whole ++ fraction).mapM digitValue?).map fun digits =>
    ⟨false, valueOf digits, -fraction.length⟩

/-- The integer written as digits behind an optional sign. -/
def exponentOf? (text : List Char) : Option Int :=
  let (negative, digits) := splitSign text
  if digits = [] then none
  else (digits.mapM digitValue?).map fun ds => if negative then -valueOf ds else valueOf ds

/-- The decimal that a text in general notation denotes, with either mark of an exponent. -/
def ofText? (text : List Char) : Option Decimal := do
  let (negative, unsigned) := splitSign text
  let isMark := fun c : Char => c = 'E' || c = 'e'
  let d ← ofPlain? (unsigned.takeWhile fun c => !isMark c)
  match unsigned.dropWhile fun c => !isMark c with
  | [] => some { d with negative }
  | _ :: rest => do
    let e ← exponentOf? rest
    some ⟨negative, d.coefficient, d.exponent + e⟩

end Decimal

end InfixCalculator
