/-! # Digits of all scripts

A decimal digit is a character of the general category `Nd`. These characters come in blocks of ten,
in the order of their values, so the class is given by the first code points of its blocks. The
scripts that joined last are recognised as digits and have no value here: a numeral that uses one is
delimited like any other and then refused.

* `isDigit`: the class.
* `digitValue?`: the value of a digit; `isDigit_of_digitValue?`: only digits have one.
* `digitChar`: the ASCII digit of a value, which `digitValue?_digitChar` reads back. -/

namespace InfixCalculator.Text

/-- The first code points of the blocks whose digits have a value. -/
def valuedStarts : List Nat :=
  [0x30, 0x660, 0x6F0, 0x7C0, 0x966, 0x9E6, 0xA66, 0xAE6, 0xB66, 0xBE6, 0xC66, 0xCE6, 0xD66, 0xDE6,
    0xE50, 0xED0, 0xF20, 0x1040, 0x1090, 0x17E0, 0x1810, 0x1946, 0x19D0, 0x1A80, 0x1A90, 0x1B50,
    0x1BB0, 0x1C40, 0x1C50, 0xA620, 0xA8D0, 0xA900, 0xA9D0, 0xA9F0, 0xAA50, 0xABF0, 0xFF10, 0x104A0,
    0x10D30, 0x11066, 0x110F0, 0x11136, 0x111D0, 0x112F0, 0x11450, 0x114D0, 0x11650, 0x116C0,
    0x11730, 0x118E0, 0x11950, 0x11C50, 0x11D50, 0x11DA0, 0x16A60, 0x16AC0, 0x16B50, 0x1D7CE,
    0x1D7D8, 0x1D7E2, 0x1D7EC, 0x1D7F6, 0x1E140, 0x1E2F0, 0x1E950, 0x1FBF0]

/-- The first code points of the blocks whose digits have none. -/
def unvaluedStarts : List Nat :=
  [0x10D40, 0x116D0, 0x116DA, 0x11BF0, 0x11DE0, 0x11F50, 0x16130, 0x16D70, 0x1CCF0, 0x1E4F0,
    0x1E5F1]

/-- The character stands in the block of ten that starts at `start`. -/
def inBlock (c : Char) (start : Nat) : Bool := start ≤ c.toNat && c.toNat < start + 10

/-- A decimal digit of any script. -/
def isDigit (c : Char) : Bool := (valuedStarts ++ unvaluedStarts).any (inBlock c)

/-- The value of a digit: its place in its block. -/
def digitValue? (c : Char) : Option Nat := (valuedStarts.find? (inBlock c)).map (c.toNat - ·)

/-- The ASCII digit of a value below ten. -/
def digitChar (n : Nat) : Char := Char.ofNat (0x30 + n)

theorem isDigit_of_digitValue? {c : Char} {n : Nat} (h : digitValue? c = some n) : isDigit c := by
  obtain ⟨start, hz, -⟩ := Option.map_eq_some_iff.1 h
  exact List.any_eq_true.2
    ⟨start, List.mem_append_left _ (List.mem_of_find?_eq_some hz), List.find?_some hz⟩

theorem digitValue?_lt {c : Char} {n : Nat} (h : digitValue? c = some n) : n < 10 := by
  obtain ⟨start, hz, rfl⟩ := Option.map_eq_some_iff.1 h
  have := List.find?_some hz
  simp only [inBlock, Bool.and_eq_true, decide_eq_true_eq] at this
  omega

theorem digitValue?_digitChar {n : Nat} (h : n < 10) : digitValue? (digitChar n) = some n := by
  revert n; decide

end InfixCalculator.Text
