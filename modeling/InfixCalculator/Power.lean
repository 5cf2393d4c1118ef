import InfixCalculator.Decimal.Notation
import InfixCalculator.Double.Functions
import InfixCalculator.Double.Shortest

/-! # Powers and square roots of decimals

Both take a detour through doubles and may therefore round: the operands go to the nearest doubles,
and the shortest decimal of the result comes back.

* `Decimal.power`, `Decimal.squareRoot`: the two operations.
* `PowerError`: why there is no result, and `PowerError.message`, its wording. -/

namespace InfixCalculator

/-- Why a power or a square root has no result. -/
inductive PowerError where
  /-- No real number is that power. -/
  | noRealPower (base exponent : Decimal)
  /-- The power exceeds all doubles. -/
  | powerTooLarge (base exponent : Decimal)
  /-- The number under the root is negative. -/
  | negativeRadicand (radicand : Decimal)
  /-- The square root exceeds all doubles. -/
  | rootTooLarge (radicand : Decimal)
deriving DecidableEq

/-- What the user reads. -/
def PowerError.message : PowerError → List Char
  | noRealPower b e => b.toText ++ " ^ ".toList ++ e.toText ++ " has no real value".toList
  | powerTooLarge b e => b.toText ++ " ^ ".toList ++ e.toText ++ " is too large".toList
  | negativeRadicand r => "Cannot take the square root of negative number ".toList ++ r.toText
  | rootTooLarge r => '√' :: (r.toText ++ " is too large".toList)

namespace Decimal

/-- The power. An answer that is no finite double counts as too large. -/
def power (functions : Double.Functions) (base exponent : Decimal) : Except PowerError Decimal :=
  match functions.power (Double.ofDecimal base) (Double.ofDecimal exponent) with
  | .error .domain => .error (.noRealPower base exponent)
  | .error .range => .error (.powerTooLarge base exponent)
  | .ok result => match result.toDecimal? with
    | some d => .ok d
    | none => .error (.powerTooLarge base exponent)

/-- The square root. Any answer but a finite double counts as too large. -/
def squareRoot (functions : Double.Functions) (radicand : Decimal) : Except PowerError Decimal :=
  if radicand.isBelowZero then .error (.negativeRadicand radicand)
  else match functions.squareRoot (Double.ofDecimal radicand) with
    | .error _ => .error (.rootTooLarge radicand)
    | .ok result => match result.toDecimal? with
      | some d => .ok d
      | none => .error (.rootTooLarge radicand)

end Decimal

end InfixCalculator
