import InfixCalculator.CommandLine.Usage
import InfixCalculator.Text.Digit

/-! # Arguments

The arguments of the command line are sorted each by itself: switches, possibly with a value
attached, and plain words. Everything behind a divider `--` is a word.

* `Argument`: the sorts.
* `Argument.of`: the sort of one argument.
* `Argument.sortAll`: the arguments with their sorts. -/

namespace InfixCalculator

open Text

/-- The text behind which everything is a word. -/
def dividerText : List Char := ['-', '-']

/-- The sort of an argument. -/
inductive Argument where
  | word
  /-- The first `--`. -/
  | divider
  /-- A switch, by its letter or its name, and the text attached to it: after an equals sign, or
  right behind its letter. -/
  | switch (s : Switch) (byLetter : Bool) (attached : Option (List Char))
  /-- It has the form of a switch and is none. -/
  | unknown

/-- The text is a minus and a number of digits and at most one point, with a digit at its end; a
line feed may follow. -/
def isNegativeNumber : List Char → Bool
  | '-' :: text =>
    let number := if text.getLast? = some '\n' then text.dropLast else text
    let isDecimal := fun c => (digitValue? c).isSome
    let fraction := number.dropWhile isDecimal
    if fraction = [] then number ≠ []
    else fraction.head? = some '.' && fraction.drop 1 ≠ [] && (fraction.drop 1).all isDecimal
  | _ => false

namespace Argument

/-- The sort of an argument that starts with a dash and names no switch. -/
def unnamed (text : List Char) : Argument :=
  if isNegativeNumber text || text.contains ' ' then word else unknown

/-- The sort of an argument before a divider. -/
def of (text : List Char) : Except UsageError Argument :=
  match text with
  | '-' :: second :: more =>
    let name := text.takeWhile (· ≠ '=')
    let value := text.dropWhile (· ≠ '=')
    let attached := if value = [] then none else some (value.drop 1)
    match Switch.ofForm? text, Switch.ofForm? name with
    | some s, _ => .ok (switch s (second ≠ '-') none)
    | none, some s => .ok (switch s (second ≠ '-') attached)
    | none, none =>
      if second = '-' then
        match Switch.completions name with
        | [] => .ok (unnamed text)
        | [s] => .ok (switch s false attached)
        | completions => .error (.ambiguous text completions)
      else
        match Switch.ofLetter? second with
        | some s => .ok (switch s true (some more))
        | none => .ok (unnamed text)
  | _ => .ok word

/-- The arguments with their sorts. -/
def sortAll : List (List Char) → Except UsageError (List (List Char × Argument))
  | [] => .ok []
  | text :: rest =>
    if text = dividerText then .ok ((text, divider) :: rest.map fun r => (r, word))
    else do
      let sort ← of text
      let sorts ← sortAll rest
      .ok ((text, sort) :: sorts)

/-- The argument is the divider. -/
def isDivider : Argument → Bool
  | divider => true
  | _ => false

end Argument

end InfixCalculator
