import InfixCalculator.Text.Numeral
import InfixCalculator.Text.Quoted
import Mathlib.Data.List.Basic

/-! # Texts on one line

A text of printable characters stays on one line, whatever is taken for the end of a line.

* `Visible`: the texts of printable characters; `isPrintable_of_ascii`: all ASCII characters from the
  space to the tilde are printable.
* `lineBreaks`: the characters that can end a line; `Visible.notMem_lineBreaks`: none of them is
  printable.
* `visible_numeral`, `visible_quoted`: numerals and quoted texts are visible. -/

namespace InfixCalculator.Text

/-- All characters of the text are printable. -/
def Visible (text : List Char) : Prop := ∀ x ∈ text, isPrintable x = true

/-- The characters that can end a line: line feed and carriage return, the vertical tabulator, the
form feed, three separators of ASCII, and those of Unicode for lines and paragraphs. -/
def lineBreaks : List Char :=
  ['\n', '\x0b', '\x0c', '\r', '\x1c', '\x1d', '\x1e', '\x85', '\u2028', '\u2029']

variable {xs ys : List Char}

theorem visible_nil : Visible [] := nofun

theorem visible_cons {x : Char} (hx : isPrintable x = true) (h : Visible xs) : Visible (x :: xs) :=
  List.forall_mem_cons.mpr ⟨hx, h⟩

theorem Visible.append (h : Visible xs) (h' : Visible ys) : Visible (xs ++ ys) :=
  List.forall_mem_append.mpr ⟨h, h'⟩

/-- **A visible text is on one line.** -/
theorem Visible.notMem_lineBreaks (h : Visible xs) : ∀ x ∈ xs, x ∉ lineBreaks := by
  have hbreaks : lineBreaks.all (!isPrintable ·) = true := by decide +kernel
  intro x hx hbreak
  have hnot := List.all_eq_true.mp hbreaks x hbreak
  rw [h x hx] at hnot
  cases hnot

/-! ### ASCII -/

/-- A character of ASCII that is written as itself. -/
def isAsciiText (c : Char) : Bool := 0x20 ≤ c.toNat && c.toNat < 0x7F

theorem isPrintable_of_ascii {c : Char} (h : isAsciiText c = true) : isPrintable c = true := by
  -- The ranges of unprintable characters lie on either side.
  have hranges : ∀ range ∈ unprintableRanges, range.2 < 0x20 ∨ 0x7F ≤ range.1 := by decide +kernel
  simp only [isAsciiText, Bool.and_eq_true, decide_eq_true_eq] at h
  simp only [isPrintable, Bool.not_eq_true', List.any_eq_false, Bool.and_eq_true,
    decide_eq_true_eq, not_and, Nat.not_le]
  intro range hrange hlow
  rcases hranges range hrange with hside | hside <;> omega

theorem visible_of_ascii (h : xs.all isAsciiText = true) : Visible xs := fun x hx =>
  isPrintable_of_ascii (List.all_eq_true.mp h x hx)

/-! ### Numerals and quoted texts -/

theorem mem_numeral {n : ℕ} {x : Char} (h : x ∈ numeral n) : ∃ d < 10, x = digitChar d := by
  obtain ⟨d, hd, rfl⟩ := List.mem_map.mp h
  exact ⟨d, mem_digitsOf_lt hd, rfl⟩

theorem isAsciiText_digitChar : ∀ d < 10, isAsciiText (digitChar d) = true := by decide

theorem visible_numeral (n : ℕ) : Visible (numeral n) := by
  intro x hx
  obtain ⟨d, hd, rfl⟩ := mem_numeral hx
  exact isPrintable_of_ascii (isAsciiText_digitChar d hd)

theorem visible_hexDigits (width n : ℕ) : Visible (hexDigits width n) := by
  induction width generalizing n with
  | zero => exact visible_nil
  | succ width ih =>
    have hascii : ∀ k < 16, isAsciiText (hexChar k) = true := by decide
    have hlast := hascii (n % 16) (Nat.mod_lt _ (by decide))
    rw [hexDigits]
    exact (ih _).append (visible_cons (isPrintable_of_ascii hlast) visible_nil)

theorem visible_codePointEscape (n : ℕ) : Visible (codePointEscape n) := by
  have hx : Visible ['\\', 'x'] := visible_of_ascii (by decide)
  have hu : Visible ['\\', 'u'] := visible_of_ascii (by decide)
  have hU : Visible ['\\', 'U'] := visible_of_ascii (by decide)
  unfold codePointEscape
  split_ifs
  · exact hx.append (visible_hexDigits 2 n)
  · exact hu.append (visible_hexDigits 4 n)
  · exact hU.append (visible_hexDigits 8 n)

theorem visible_quotedChar {quote : Char} (hquote : isPrintable quote = true) (c : Char) :
    Visible (quotedChar quote c) := by
  have hbackslash : isPrintable '\\' = true := isPrintable_of_ascii (by decide)
  unfold quotedChar
  split_ifs with hspecial _ _ _ hprintable
  · simp only [Bool.or_eq_true, decide_eq_true_eq] at hspecial
    rcases hspecial with rfl | rfl
    · exact visible_cons hbackslash (visible_cons hquote visible_nil)
    · exact visible_cons hbackslash (visible_cons hbackslash visible_nil)
  · exact visible_of_ascii (by decide)
  · exact visible_of_ascii (by decide)
  · exact visible_of_ascii (by decide)
  · exact visible_cons hprintable visible_nil
  · exact visible_codePointEscape _

/-- **A quoted text is visible**, whatever the text. -/
theorem visible_quoted (text : List Char) : Visible (quoted text) := by
  have hquote : isPrintable (quoteFor text) = true := by
    refine isPrintable_of_ascii ?_
    unfold quoteFor
    split_ifs <;> decide
  have hinside : Visible (text.flatMap (quotedChar (quoteFor text))) := by
    intro x hx
    obtain ⟨c, -, hc⟩ := List.mem_flatMap.mp hx
    exact visible_quotedChar hquote c x hc
  exact visible_cons hquote (hinside.append (visible_cons hquote visible_nil))

end InfixCalculator.Text
