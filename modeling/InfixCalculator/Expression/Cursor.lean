import InfixCalculator.Expression.Problem

/-! # Reading positions

A cursor stands in a text and moves forward only. It also counts the groups, roots and exponents
that are open around it and knows how many of them may be.

* `Cursor.position`, `Cursor.peek`, `Cursor.atEnd`: where it stands and what comes next.
* `Cursor.advance`, `Cursor.accept?`: the moves; `left_advance`, `left_of_accept?` say how much of
  the text they leave.
* `Cursor.enter?`, `Cursor.leave?`: one more level of nesting, within the limit, and one less. -/

namespace InfixCalculator

open Text

/-- A position in a text, given by what is still to be read, and the nesting around it. -/
structure Cursor where
  text : List Char
  /-- What is still to be read. -/
  rest : List Char
  /-- The number of open levels. -/
  depth : Nat
  /-- How many levels may be open, if there is a limit. -/
  limit : Option Int
  rest_suffix : rest <:+ text

namespace Cursor

/-- The cursor before a text. -/
def start (text : List Char) (limit : Option Int) : Cursor :=
  ⟨text, text, 0, limit, List.suffix_rfl⟩

/-- The number of characters still to be read. -/
def left (c : Cursor) : Nat := c.rest.length

/-- The number of characters read. -/
def position (c : Cursor) : Nat := c.text.length - c.rest.length

/-- Nothing is left to be read. -/
def atEnd (c : Cursor) : Bool := c.rest.isEmpty

/-- The next character. -/
def peek (c : Cursor) : Option Char := c.rest.head?

/-- The cursor `n` characters further on, or at the end if there are fewer. -/
def advance (n : Nat) (c : Cursor) : Cursor :=
  { c with rest := c.rest.drop n, rest_suffix := (List.drop_suffix n c.rest).trans c.rest_suffix }

/-- The next character and the cursor after it, if it is one of the given ones. -/
def accept? (chars : List Char) (c : Cursor) : Option (Char × Cursor) :=
  match c.peek with
  | some x => if chars.contains x then some (x, c.advance 1) else none
  | none => none

/-- The cursor inside one more level. -/
def enter (c : Cursor) : Cursor := { c with depth := c.depth + 1 }

/-- The cursor outside the innermost level. -/
def leave (c : Cursor) : Cursor := { c with depth := c.depth - 1 }

/-- The cursor inside one more level, unless the limit forbids it. -/
def enter? (c : Cursor) : Except Problem Cursor :=
  match c.limit with
  | some limit => if limit ≤ c.depth then .error (.nestingTooDeep c.position limit) else .ok c.enter
  | none => .ok c.enter

/-- The cursor outside the innermost level, if one is open. -/
def leave? (c : Cursor) : Option Cursor := if c.depth = 0 then none else some c.leave

/-- A cursor shown to the user, with its text and position. -/
def description (c : Cursor) : List Char :=
  "Cursor(".toList ++ quoted c.text ++ ", position=".toList ++ numeral c.position ++ [')']

/-! ## What is left -/

@[simp] theorem left_advance (n : Nat) (c : Cursor) : (c.advance n).left = c.left - n := by
  simp [advance, left]

theorem left_le_length (c : Cursor) : c.left ≤ c.text.length := c.rest_suffix.length_le

theorem position_add_left (c : Cursor) : c.position + c.left = c.text.length :=
  Nat.sub_add_cancel c.left_le_length

theorem left_of_enter? {c d : Cursor} (h : c.enter? = .ok d) : d.left = c.left := by
  unfold enter? at h
  split at h
  · split at h
    · cases h
    · cases h; rfl
  · cases h; rfl

theorem left_of_accept? {chars : List Char} {c d : Cursor} {x : Char}
    (h : c.accept? chars = some (x, d)) : d.left < c.left := by
  unfold accept? peek at h
  split at h
  · rename_i y hy
    split at h
    · cases h
      have : c.left ≠ 0 := fun h0 => by
        rw [left, List.length_eq_zero_iff] at h0
        rw [h0] at hy
        cases hy
      rw [left_advance]
      omega
    · cases h
  · cases h

end Cursor

end InfixCalculator
