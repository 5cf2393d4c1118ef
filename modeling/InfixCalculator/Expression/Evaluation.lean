import InfixCalculator.Expression.Grammar

/-! # Evaluation

* `Calculator.evaluate`: the value of a text: that of the expression which its normal form is as a
  whole; a text of blanks is zero.
* `Failure`: what comes in place of a value; `Calculator.tryEvaluate` turns errors into results.
* `evaluateAt`: the value with the precision as a setting that can be out of range. -/

namespace InfixCalculator

/-- What leaves an evaluation in place of a value. -/
inductive Failure where
  /-- Something is wrong with the expression, and the user is told. -/
  | error (e : EvaluationError)
  /-- An operation signalled what nobody caught. -/
  | signal (s : Signal)
deriving DecidableEq

/-- What a fault in a text comes to. An overflow is caught, and no other signal is. -/
def Failure.ofFault (text : List Char) : Fault → Failure
  | .problem p => error ⟨text, p⟩
  | .signal .overflow => error ⟨text, .resultTooLarge⟩
  | .signal s => signal s

/-- A value or an error. -/
abbrev Evaluated := Except EvaluationError Decimal

namespace Calculator

/-- How many groups, roots and exponents may be open inside each other. -/
def nestingLimit : Int := 100

/-- The calculator with the standard precision and the functions of the machine. -/
def standard : Calculator := ⟨.standard, .native⟩

/-- The value without the sign of a zero. -/
def unsignedZero (v : Decimal) : Decimal := if v.isZero then v.abs else v

/-- The value of a text in normal form that is not empty. -/
def evaluateNormal (k : Calculator) (text : List Char) : Except Failure Decimal :=
  match k.expression (.start text (some nestingLimit)) with
  | .fault f _ => .error (.ofFault text f)
  | .value v stop =>
    if stop.atEnd then .ok (unsignedZero v) else .error (.error ⟨text, .trailingInput stop.position⟩)

/-- The value of a text. -/
def evaluate (k : Calculator) (text : List Char) : Except Failure Decimal :=
  let normal := normalize text
  if normal = [] then .ok (.ofNat 0) else k.evaluateNormal normal

/-- The value of a text or the error in it; only a signal is let through. -/
def tryEvaluate (k : Calculator) (text : List Char) : Except Signal Evaluated :=
  match k.evaluate text with
  | .ok v => .ok (.ok v)
  | .error (.error e) => .ok (.error e)
  | .error (.signal s) => .error s

end Calculator

/-- The value of a text under a precision to be checked, the standard one if none is given. A text
of blanks is zero whatever the precision. -/
def evaluateAt (functions : Double.Functions) (precision : Option Int) (text : List Char) :
    Except PrecisionError (Except Failure Decimal) :=
  if normalize text = [] then .ok (.ok (.ofNat 0))
  else (Precision.ofOption? precision).map fun p => Calculator.evaluate ⟨p, functions⟩ text

end InfixCalculator
