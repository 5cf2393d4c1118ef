import InfixCalculator.Double.Basic

/-! # Functions on doubles

Powers and square roots are taken by the arithmetic of the machine. Nothing else in the library
depends on what they answer, so they come as a record that a calculator is given.

* `Double.Functions`: the two functions.
* `Double.Functions.native`: those of the machine. An answer that is no number, or infinite, is
  refused where the operands do not account for it. -/

namespace InfixCalculator

namespace Double

/-- Why a function on doubles refuses to answer. -/
inductive Refusal where
  /-- The function is not defined there. -/
  | domain
  /-- The answer exceeds all doubles. -/
  | range
deriving DecidableEq

/-- A power function and a square root on doubles. -/
structure Functions where
  power : Double → Double → Except Refusal Double
  squareRoot : Double → Except Refusal Double

/-- The machine's number of the same bits. -/
def toFloat (x : Double) : Float := Float.ofBits x.toBits

/-- The double of the same bits as the machine's number. -/
def ofFloat (x : Float) : Double := ofBits x.toBits

/-- A power of finite doubles that came out as `power` is refused if it is no number or infinite;
an infinite power of zero is undefined. -/
def checkedPower (base exponent power : Double) : Except Refusal Double :=
  if power.isFinite || !(base.isFinite && exponent.isFinite) then .ok power
  else if power = .nan || base.isZero then .error .domain
  else .error .range

/-- A square root that came out as `root` is refused if it is no number although the radicand is
one. -/
def checkedRoot (radicand root : Double) : Except Refusal Double :=
  if root = .nan && radicand ≠ .nan then .error .domain else .ok root

/-- The functions of the machine. -/
def Functions.native : Functions where
  power x y := checkedPower x y (ofFloat (Float.pow x.toFloat y.toFloat))
  squareRoot x := checkedRoot x (ofFloat (Float.sqrt x.toFloat))

end Double

end InfixCalculator
