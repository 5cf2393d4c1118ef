import InfixCalculator.Decimal.Arithmetic
import InfixCalculator.Decimal.Notation

/-! # Results on display

A result is shown in plain notation, or rounded to a wanted count of significant digits. A width
that the text exceeds makes room by further rounding: to six digits, then to fewer, down to one.

* `Decimal.significant`: general notation after rounding to significant digits.
* `Decimal.laidOut`: the text in a layout.
* `Layout.ofSettings?`: the layout that the user's settings ask for.
* `Decimal.display`: the text under given settings; settings without a layout show no result. -/

namespace InfixCalculator

attribute [local instance (high)] instPowNat

/-! ## Layouts -/

/-- How results are shown. -/
structure Layout where
  /-- How many significant digits are shown, if not all. -/
  digits : Option Nat
  /-- From which length on a result is shortened. -/
  width : Option Int

namespace Decimal

/-- The decimal rounded to `digits` significant digits, in general notation with the mark `e`; no
digit counts as one. -/
def significant (digits : Nat) (d : Decimal) : List Char :=
  (d.toDigits (max digits 1)).general 'e'

/-- The text is not longer than the width. -/
def fits (width : Int) (text : List Char) : Bool := text.length ≤ width

/-- The text with the most digits that fits, out of six to two, else the one with one digit. -/
def shortened (width : Int) (d : Decimal) : List Char :=
  (([6, 5, 4, 3, 2].map fun digits => d.significant digits).find? (fits width)).getD
    (d.significant 1)

/-- The text, shortened if there is a width and the text exceeds it. -/
def narrowed (width : Option Int) (d : Decimal) (text : List Char) : List Char :=
  match width with
  | none => text
  | some w => if fits w text then text else d.shortened w

/-- The text of a result in a layout. -/
def laidOut (layout : Layout) (d : Decimal) : List Char :=
  d.narrowed layout.width <| match layout.digits with
    | none => d.plain
    | some digits => d.significant digits

end Decimal

/-! ## Settings -/

/-- A number that the user may set. -/
inductive Setting where
  | unset
  /-- It was asked for without a value. -/
  | void
  | value (n : Int)
deriving DecidableEq

/-- The setting of a number that may be given. -/
def Setting.ofOption : Option Int → Setting
  | none => unset
  | some n => value n

/-- What the user may ask of the display. -/
structure DisplaySettings where
  /-- How many significant digits are shown. -/
  precision : Setting
  /-- From which length on a result is shortened. -/
  width : Setting

/-- Why settings have no layout. -/
inductive DisplayError where
  /-- The precision is void, negative or does not fit a machine word of 64 bits. -/
  | notACount
  /-- The precision is greater than the greatest one. -/
  | tooMany
  /-- The width is void. -/
  | noWidth
deriving DecidableEq

namespace Layout

/-- The number of digits that a precision asks for. -/
def digits? : Setting → Except DisplayError (Option Nat)
  | .unset => .ok none
  | .void => .error .notACount
  | .value n =>
    if n < 0 ∨ 2 ^ (63 : Nat) ≤ n then .error .notACount
    else if Precision.greatest < n then .error .tooMany
    else .ok (some n.toNat)

/-- The length that a width asks for. -/
def width? : Setting → Except DisplayError (Option Int)
  | .unset => .ok none
  | .void => .error .noWidth
  | .value n => .ok (some n)

/-- The layout that the settings ask for. -/
def ofSettings? (settings : DisplaySettings) : Except DisplayError Layout := do
  let digits ← digits? settings.precision
  let width ← width? settings.width
  .ok ⟨digits, width⟩

end Layout

/-- The text of a result on display. -/
def Decimal.display (settings : DisplaySettings) (d : Decimal) : Except DisplayError (List Char) :=
  (Layout.ofSettings? settings).map fun layout => d.laidOut layout

end InfixCalculator
