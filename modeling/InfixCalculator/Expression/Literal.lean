import InfixCalculator.Expression.Alphabet
import InfixCalculator.Expression.Outcome

/-! # Number literals

A literal is the longest run of digits and points at the cursor. It is read exactly, whatever the
precision of the arithmetic.

* `Cursor.literal`: the run of digits and points ahead.
* `Cursor.number`: its value; `leavesBelow_number`: a value costs at least one character. -/

namespace InfixCalculator

namespace Cursor

/-- The longest run of digits and points ahead. -/
def literal (c : Cursor) : List Char := c.rest.takeWhile isNumberChar

/-- What is wrong where no literal starts. -/
def noLiteral (c : Cursor) : Problem :=
  match c.peek with
  | some x => if isAlphabet x then .missingNumber c.position else .unexpectedCharacter c.position x
  | none => .missingNumber c.position

/-- The literal ahead as a number. The cursor moves behind the literal if it has digits and at most
one point, and stays otherwise. -/
def number (c : Cursor) : Outcome :=
  let literal := c.literal
  if literal = [] then .problem c.noLiteral c
  else if 1 < literal.count point then .problem (.multiplePoints c.position literal) c
  else if literal = [point] then .problem (.noDigits c.position) c
  else match Decimal.ofPlain? literal with
    | some v => .value v (c.advance literal.length)
    | none => .problem (.unreadableLiteral literal) (c.advance literal.length)

theorem length_literal_le (c : Cursor) : c.literal.length ≤ c.left :=
  (List.takeWhile_sublist _).length_le

theorem leavesBelow_number (c : Cursor) : c.number.LeavesBelow c.left := by
  have hle := c.length_literal_le
  unfold number
  dsimp only
  split
  · trivial
  rename_i h
  have hpos : 0 < c.literal.length := List.length_pos_iff.2 h
  split
  · trivial
  split
  · trivial
  split
  · rw [Outcome.LeavesBelow, left_advance]
    omega
  · trivial

end Cursor

end InfixCalculator
