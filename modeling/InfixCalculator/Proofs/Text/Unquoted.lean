import InfixCalculator.Text.Quoted
import Mathlib.Algebra.Group.Nat.Defs
import Mathlib.Data.List.Basic

/-! # Quoted texts are told apart

* `Text.firstUnquoted`: the character that a quoted text goes on with, its escape undone.
* `Text.firstUnquoted_quotedChar`: so each character is known from its escape.
* `Text.quoted_injective`: and each text from how it is quoted. -/

namespace InfixCalculator.Text

/-! ### Hexadecimal digits -/

/-- The value of a hexadecimal digit in lower case. -/
def hexValue (c : Char) : ℕ := if c.toNat < 0x3A then c.toNat - 0x30 else c.toNat - 0x57

/-- The number that hexadecimal digits denote. -/
def readHex (digits : List Char) : ℕ := digits.foldl (fun n c => 16 * n + hexValue c) 0

theorem length_hexDigits (width n : ℕ) : (hexDigits width n).length = width := by
  induction width generalizing n with
  | zero => rfl
  | succ width ih => rw [hexDigits, List.length_append, ih, List.length_singleton]

theorem readHex_hexDigits {width n : ℕ} (h : n < 16 ^ width) : readHex (hexDigits width n) = n := by
  have hdigit : ∀ d < 16, hexValue (hexChar d) = d := by decide
  induction width generalizing n with
  | zero =>
    have hn : n = 0 := by simpa using h
    rw [hn]
    rfl
  | succ width ih =>
    have hhigh : n / 16 < 16 ^ width := by
      rw [Nat.pow_succ] at h
      omega
    have hlow := hdigit (n % 16) (Nat.mod_lt _ (by decide))
    have hval := ih hhigh
    rw [readHex] at hval
    rw [readHex, hexDigits, List.foldl_append, hval, List.foldl_cons, List.foldl_nil, hlow]
    omega

/-! ### Escapes -/

/-- The character of an escape of `width` hexadecimal digits. -/
def unescaped (width : ℕ) (digits : List Char) : Char := Char.ofNat (readHex (digits.take width))

theorem unescaped_hexDigits (width : ℕ) {c : Char} (h : c.toNat < 16 ^ width) (rest : List Char) :
    unescaped width (hexDigits width c.toNat ++ rest) = c := by
  have htake : (hexDigits width c.toNat ++ rest).take width = hexDigits width c.toNat :=
    List.take_left' (length_hexDigits width c.toNat)
  rw [unescaped, htake, readHex_hexDigits h, Char.ofNat_toNat]

/-- The character that a text between quotes goes on with. -/
def firstUnquoted : List Char → Option Char
  | '\\' :: 'n' :: _ => some '\n'
  | '\\' :: 'r' :: _ => some '\r'
  | '\\' :: 't' :: _ => some '\t'
  | '\\' :: 'x' :: rest => some (unescaped 2 rest)
  | '\\' :: 'u' :: rest => some (unescaped 4 rest)
  | '\\' :: 'U' :: rest => some (unescaped 8 rest)
  | '\\' :: c :: _ => some c
  | c :: _ => some c
  | [] => none

theorem firstUnquoted_codePointEscape (c : Char) (rest : List Char) :
    firstUnquoted (codePointEscape c.toNat ++ rest) = some c := by
  unfold codePointEscape
  split_ifs with hx hu
  · exact congrArg some (unescaped_hexDigits 2 hx rest)
  · exact congrArg some (unescaped_hexDigits 4 hu rest)
  · have hvalid : c.toNat < 0x110000 := by
      have hchar := c.valid
      simp only [UInt32.isValidChar, Nat.isValidChar] at hchar
      show c.val.toNat < 0x110000
      omega
    exact congrArg some (unescaped_hexDigits 8 (by omega) rest)

/-- **A character is known from its escape.** -/
theorem firstUnquoted_quotedChar {quote : Char} (hquote : quote = '\'' ∨ quote = '"') (c : Char)
    (rest : List Char) : firstUnquoted (quotedChar quote c ++ rest) = some c := by
  unfold quotedChar
  split_ifs with hspecial hn hr ht hprintable
  · simp only [Bool.or_eq_true, decide_eq_true_eq] at hspecial
    rcases hspecial with rfl | rfl
    · rcases hquote with rfl | rfl <;> rfl
    · rfl
  · rw [hn]
    rfl
  · rw [hr]
    rfl
  · rw [ht]
    rfl
  · have hne : c ≠ '\\' := by simp_all
    simp [firstUnquoted, hne]
  · exact firstUnquoted_codePointEscape c rest

/-! ### Texts -/

theorem quoteFor_cases (text : List Char) : quoteFor text = '\'' ∨ quoteFor text = '"' := by
  unfold quoteFor
  split_ifs
  · exact .inr rfl
  · exact .inl rfl

theorem quotedChar_ne_nil {quote : Char} (hquote : quote = '\'' ∨ quote = '"') (c : Char) :
    quotedChar quote c ≠ [] := by
  intro hnil
  have hfirst := firstUnquoted_quotedChar hquote c []
  rw [hnil] at hfirst
  cases hfirst

theorem flatMap_quotedChar_injective {quote : Char} (hquote : quote = '\'' ∨ quote = '"') :
    Function.Injective fun text : List Char => text.flatMap (quotedChar quote) := by
  intro xs ys h
  induction xs generalizing ys with
  | nil =>
    cases ys with
    | nil => rfl
    | cons y ys =>
      have hnil : quotedChar quote y ++ ys.flatMap (quotedChar quote) = [] := h.symm
      exact absurd (List.append_eq_nil_iff.mp hnil).1 (quotedChar_ne_nil hquote y)
  | cons x xs ih =>
    cases ys with
    | nil =>
      have hnil : quotedChar quote x ++ xs.flatMap (quotedChar quote) = [] := h
      exact absurd (List.append_eq_nil_iff.mp hnil).1 (quotedChar_ne_nil hquote x)
    | cons y ys =>
      have hcons : quotedChar quote x ++ xs.flatMap (quotedChar quote) =
          quotedChar quote y ++ ys.flatMap (quotedChar quote) := h
      have hfirst := firstUnquoted_quotedChar hquote x (xs.flatMap (quotedChar quote))
      rw [hcons, firstUnquoted_quotedChar hquote y] at hfirst
      obtain rfl : y = x := Option.some.inj hfirst
      rw [ih (List.append_cancel_left hcons)]

/-- **A text is known from how it is quoted.** -/
theorem quoted_injective : Function.Injective quoted := by
  intro xs ys h
  obtain ⟨hquote, htail⟩ := List.cons.inj h
  rw [hquote] at htail
  exact flatMap_quotedChar_injective (quoteFor_cases ys) (List.append_cancel_right htail)

end InfixCalculator.Text
