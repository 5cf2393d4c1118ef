/-! # Blanks

The characters that Unicode lists under `White_Space`. They may stand anywhere in an expression and
are dropped from it.

* `isBlank`: the class, given by its list `blanks`. -/

namespace InfixCalculator.Text

/-- The code points of `White_Space`. -/
def blanks : List Nat :=
  [0x09, 0x0A, 0x0B, 0x0C, 0x0D, 0x20, 0x85, 0xA0, 0x1680,
    0x2000, 0x2001, 0x2002, 0x2003, 0x2004, 0x2005, 0x2006, 0x2007, 0x2008, 0x2009, 0x200A,
    0x2028, 0x2029, 0x202F, 0x205F, 0x3000]

/-- A character of `White_Space`. -/
def isBlank (c : Char) : Bool := blanks.contains c.toNat

end InfixCalculator.Text
