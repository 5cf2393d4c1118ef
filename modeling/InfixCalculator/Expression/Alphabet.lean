import InfixCalculator.Text.Blank
import InfixCalculator.Text.Digit

/-! # Characters of an expression

* `normalize`: the form in which expressions are read: one spelling for each operator and no blanks.
* `isAlphabet`: the characters that a well-formed expression has in this form: digits, the point,
  operators, the root and parentheses.
* `isNumberChar`: the ones that number literals consist of. -/

namespace InfixCalculator

open Text

/-! ## The alphabet -/

/-- The operators between two operands. -/
def operators : List Char := ['+', '-', '*', '/', '^']

/-- The square root, written before its operand. -/
def rootSign : Char := '√'

/-- The parenthesis that opens a group. -/
def openParen : Char := '('

/-- The parenthesis that closes a group. -/
def closeParen : Char := ')'

/-- The point of a number literal. -/
def point : Char := '.'

/-- A character of a number literal. -/
def isNumberChar (c : Char) : Bool := isDigit c || c = point

/-- A character that a well-formed expression can have. -/
def isAlphabet (c : Char) : Bool :=
  (isDigit c || c = point) || operators.contains c || [openParen, closeParen, rootSign].contains c

/-! ## The normal form -/

/-- The other spellings of multiplication and division. -/
def glyphs : List (Char × Char) :=
  [('×', '*'), ('⋅', '*'), ('∗', '*'), ('x', '*'), ('÷', '/'), ('∕', '/')]

/-- The text with one spelling replaced throughout. -/
def respell (text : List Char) (glyph : Char × Char) : List Char :=
  text.map fun c => if c = glyph.1 then glyph.2 else c

/-- The text with each operator in its one spelling and without blanks. -/
def normalize (text : List Char) : List Char :=
  (glyphs.foldl respell text).filter fun c => !isBlank c

end InfixCalculator
