import InfixCalculator.Text.Blank
import InfixCalculator.Text.Numeral

/-! # Integers as users write them

An integer is written in digits of any script, with a sign before them if need be, single
underscores between them and blanks around it all.

* `integer?`: the integer that a text denotes. -/

namespace InfixCalculator.Text

/-- The digits of a text in which single underscores may separate digits. -/
def separatedDigits? : List Char → Option (List Nat)
  | [] => none
  | [c] => (digitValue? c).map ([·])
  | c :: '_' :: rest => do
    let d ← digitValue? c
    let ds ← separatedDigits? rest
    some (d :: ds)
  | c :: rest => do
    let d ← digitValue? c
    let ds ← separatedDigits? rest
    some (d :: ds)

/-- The text without the blanks around it. -/
def trimmed (text : List Char) : List Char :=
  ((text.dropWhile isBlank).reverse.dropWhile isBlank).reverse

/-- A sign, if there is one, and what follows it: `true` stands for a minus. -/
def splitSign : List Char → Bool × List Char
  | '-' :: rest => (true, rest)
  | '+' :: rest => (false, rest)
  | text => (false, text)

/-- The greatest number of digits of an integer that is read. -/
def greatestDigits : Nat := 4300

/-- The integer that the text denotes. -/
def integer? (text : List Char) : Option Int := do
  let (negative, unsigned) := splitSign (trimmed text)
  let digits ← separatedDigits? unsigned
  if greatestDigits < digits.length then none
  else if negative then some (-valueOf digits) else some (valueOf digits)

end InfixCalculator.Text
