import InfixCalculator.Proofs.Decimal.Shown

/-! # Messages on one line

A message quotes parts of the expression, or all of it, and stays on one line nevertheless.

* `EvaluationError.visible_message`: a message consists of printable characters, whatever stands in
  the expression. -/

namespace InfixCalculator

open Text

theorem PowerError.visible_message (e : PowerError) : Visible e.message := by
  cases e with
  | noRealPower b e =>
    have hop : Visible " ^ ".toList := visible_of_ascii (by decide)
    have hend : Visible " has no real value".toList := visible_of_ascii (by decide)
    exact ((b.visible_toText.append hop).append e.visible_toText).append hend
  | powerTooLarge b e =>
    have hop : Visible " ^ ".toList := visible_of_ascii (by decide)
    have hend : Visible " is too large".toList := visible_of_ascii (by decide)
    exact ((b.visible_toText.append hop).append e.visible_toText).append hend
  | negativeRadicand r =>
    have hstart : Visible "Cannot take the square root of negative number ".toList :=
      visible_of_ascii (by decide)
    exact hstart.append r.visible_toText
  | rootTooLarge r =>
    have hroot : isPrintable '√' = true := by decide +kernel
    have hend : Visible " is too large".toList := visible_of_ascii (by decide)
    exact visible_cons hroot (r.visible_toText.append hend)

namespace EvaluationError

theorem visible_atPosition (position : ℕ) (expression : List Char) :
    Visible (atPosition position expression) := by
  have hstart : Visible "at position ".toList := visible_of_ascii (by decide)
  have hmiddle : Visible " in ".toList := visible_of_ascii (by decide)
  exact ((hstart.append (visible_numeral position)).append hmiddle).append (visible_quoted expression)

theorem visible_integerText (n : ℤ) : Visible (integerText n) := by
  refine Visible.append ?_ (visible_numeral _)
  split_ifs
  · exact visible_of_ascii (by decide)
  · exact visible_nil

/-- **A message is visible**, whatever the expression. -/
theorem visible_message (e : EvaluationError) : Visible e.message := by
  obtain ⟨text, p⟩ := e
  have hat := fun position => visible_atPosition position text
  cases p with
  | unexpectedCharacter position c =>
    have hstart : Visible "Unexpected character ".toList := visible_of_ascii (by decide)
    have hblank : isPrintable ' ' = true := isPrintable_of_ascii (by decide)
    exact (hstart.append (visible_quoted [c])).append (visible_cons hblank (hat position))
  | trailingInput position =>
    have hstart : Visible "Unexpected character ".toList := visible_of_ascii (by decide)
    exact hstart.append (hat position)
  | missingNumber position =>
    have hstart : Visible "Invalid number ".toList := visible_of_ascii (by decide)
    exact hstart.append (hat position)
  | noDigits position =>
    have hstart : Visible "Invalid number ".toList := visible_of_ascii (by decide)
    have hend : Visible ": no digits".toList := visible_of_ascii (by decide)
    exact (hstart.append (hat position)).append hend
  | unreadableLiteral literal =>
    have hstart : Visible "Cannot parse ".toList := visible_of_ascii (by decide)
    have hend : Visible " as a decimal".toList := visible_of_ascii (by decide)
    exact (hstart.append (visible_quoted literal)).append hend
  | multiplePoints position literal =>
    have hstart : Visible "Multiple decimal points in ".toList := visible_of_ascii (by decide)
    have hplace : Visible " at position ".toList := visible_of_ascii (by decide)
    exact ((hstart.append (visible_quoted literal)).append hplace).append (visible_numeral position)
  | unclosedGroup position =>
    have hstart : Visible "Missing closing parenthesis for the one ".toList :=
      visible_of_ascii (by decide)
    exact hstart.append (hat position)
  | divisionByZero position =>
    have hstart : Visible "Divide by zero ".toList := visible_of_ascii (by decide)
    exact hstart.append (hat position)
  | nestingTooDeep position limit =>
    have hstart : Visible "Expression nested deeper than ".toList := visible_of_ascii (by decide)
    have hlevels : Visible " levels ".toList := visible_of_ascii (by decide)
    exact ((hstart.append (visible_integerText limit)).append hlevels).append (hat position)
  | power p => exact p.visible_message
  | resultTooLarge =>
    have hstart : Visible "Result of ".toList := visible_of_ascii (by decide)
    have hend : Visible " is too large".toList := visible_of_ascii (by decide)
    exact (hstart.append (visible_quoted text)).append hend

end EvaluationError

end InfixCalculator
