import InfixCalculator.Power
import InfixCalculator.Text.Quoted

/-! # What can be wrong with an expression

* `Problem`: the causes, each with what it knows of the expression.
* `ErrorKind`, `Problem.kind`: the ten kinds of error that users tell apart.
* `EvaluationError`: a problem together with the text it was met in; `EvaluationError.message`,
  `EvaluationError.position?` and `EvaluationError.expression?` are what is reported of it. -/

namespace InfixCalculator

open Text

/-- Why an expression has no value. Positions count characters of its normal form. -/
inductive Problem where
  /-- A character outside the alphabet stands where a number should start. -/
  | unexpectedCharacter (position : Nat) (c : Char)
  /-- Something follows the complete expression. -/
  | trailingInput (position : Nat)
  /-- No number starts where one should. -/
  | missingNumber (position : Nat)
  /-- A number literal is a mere point. -/
  | noDigits (position : Nat)
  /-- A number literal has a digit without a value. -/
  | unreadableLiteral (literal : List Char)
  /-- A number literal has more than one point. -/
  | multiplePoints (position : Nat) (literal : List Char)
  /-- A group that starts at the position is not closed. -/
  | unclosedGroup (position : Nat)
  /-- The divisor after the operator at the position is zero. -/
  | divisionByZero (position : Nat)
  /-- Before the position a group, root or exponent starts that is one too many inside each
  other. -/
  | nestingTooDeep (position : Nat) (limit : Int)
  /-- A power or a root has no result. -/
  | power (e : PowerError)
  /-- A sum, difference, product or quotient exceeds all decimals. -/
  | resultTooLarge
deriving DecidableEq

/-- The kinds of error that users tell apart. -/
inductive ErrorKind where
  | invalidNumber
  | multipleDecimalPoints
  | unmatchedParenthesis
  | unexpectedCharacter
  | unexpectedTrailingInput
  | divideByZero
  | negativeRadicand
  | invalidPower
  | numericOverflow
  | nestingTooDeep
deriving DecidableEq

/-- The name of a kind. -/
def ErrorKind.name : ErrorKind → String
  | invalidNumber => "InvalidNumber"
  | multipleDecimalPoints => "MultipleDecimalPoints"
  | unmatchedParenthesis => "UnmatchedParenthesis"
  | unexpectedCharacter => "UnexpectedCharacter"
  | unexpectedTrailingInput => "UnexpectedTrailingInput"
  | divideByZero => "DivideByZero"
  | negativeRadicand => "NegativeRadicand"
  | invalidPower => "InvalidPower"
  | numericOverflow => "NumericOverflow"
  | nestingTooDeep => "NestingTooDeep"

/-- The kind of a power error. -/
def PowerError.kind : PowerError → ErrorKind
  | noRealPower .. => .invalidPower
  | powerTooLarge .. => .numericOverflow
  | negativeRadicand _ => .negativeRadicand
  | rootTooLarge _ => .numericOverflow

namespace Problem

/-- The kind of a problem. -/
def kind : Problem → ErrorKind
  | unexpectedCharacter .. => .unexpectedCharacter
  | trailingInput _ => .unexpectedTrailingInput
  | missingNumber _ => .invalidNumber
  | noDigits _ => .invalidNumber
  | unreadableLiteral _ => .invalidNumber
  | multiplePoints .. => .multipleDecimalPoints
  | unclosedGroup _ => .unmatchedParenthesis
  | divisionByZero _ => .divideByZero
  | nestingTooDeep .. => .nestingTooDeep
  | power e => e.kind
  | resultTooLarge => .numericOverflow

/-- The position of a problem that has one. -/
def position? : Problem → Option Nat
  | unexpectedCharacter position _ => some position
  | trailingInput position => some position
  | missingNumber position => some position
  | noDigits position => some position
  | unreadableLiteral _ => none
  | multiplePoints position _ => some position
  | unclosedGroup position => some position
  | divisionByZero position => some position
  | nestingTooDeep position _ => some position
  | power _ => none
  | resultTooLarge => none

/-- The problem is reported with the expression: it has a position in it, or concerns it as a
whole. -/
def namesExpression (p : Problem) : Bool := p.position?.isSome || p = .resultTooLarge

end Problem

/-- A problem and the normal form of the expression it was met in. -/
structure EvaluationError where
  expression : List Char
  problem : Problem
deriving DecidableEq

namespace EvaluationError

/-- The kind of the error. -/
def kind (e : EvaluationError) : ErrorKind := e.problem.kind

/-- The position of the error, if it has one. -/
def position? (e : EvaluationError) : Option Nat := e.problem.position?

/-- The expression, if it is reported. -/
def expression? (e : EvaluationError) : Option (List Char) :=
  if e.problem.namesExpression then some e.expression else none

/-- The words that point at a place in the expression. -/
def atPosition (position : Nat) (expression : List Char) : List Char :=
  "at position ".toList ++ numeral position ++ " in ".toList ++ quoted expression

/-- A count that may be negative, in digits. -/
def integerText (n : Int) : List Char := (if n < 0 then ['-'] else []) ++ numeral n.natAbs

/-- What the user reads. -/
def message (e : EvaluationError) : List Char :=
  match e.problem with
  | .unexpectedCharacter position c =>
    "Unexpected character ".toList ++ quoted [c] ++ ' ' :: atPosition position e.expression
  | .trailingInput position => "Unexpected character ".toList ++ atPosition position e.expression
  | .missingNumber position => "Invalid number ".toList ++ atPosition position e.expression
  | .noDigits position =>
    "Invalid number ".toList ++ atPosition position e.expression ++ ": no digits".toList
  | .unreadableLiteral literal =>
    "Cannot parse ".toList ++ quoted literal ++ " as a decimal".toList
  | .multiplePoints position literal =>
    "Multiple decimal points in ".toList ++ quoted literal ++ " at position ".toList ++
      numeral position
  | .unclosedGroup position =>
    "Missing closing parenthesis for the one ".toList ++ atPosition position e.expression
  | .divisionByZero position => "Divide by zero ".toList ++ atPosition position e.expression
  | .nestingTooDeep position limit =>
    "Expression nested deeper than ".toList ++ integerText limit ++ " levels ".toList ++
      atPosition position e.expression
  | .power p => p.message
  | .resultTooLarge => "Result of ".toList ++ quoted e.expression ++ " is too large".toList

end EvaluationError

end InfixCalculator
