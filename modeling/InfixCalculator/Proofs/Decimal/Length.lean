import InfixCalculator.Decimal.Layout
import InfixCalculator.Proofs.Decimal.Plain
import InfixCalculator.Proofs.Text.Digits

/-! # How long a number is when it is written

The length of a notation depends on three things only: how many digits are written, where the first
one stands, and whether there is a minus.

* `Text.length_numeral`, `Text.length_numeral_le_iff`: the length of a numeral.
* `Decimal.figures`: the digits of a coefficient, one for zero.
* `Decimal.length_plain`: plain notation has the digits before the point, and behind it those down to
  the exponent; a zero with a positive exponent is an exception (`length_plain_of_isZero`).
* `Decimal.length_scientific`: scientific notation has all digits and an exponent.
* `Decimal.length_general_of_positional`, `length_general_of_not_positional`: which of both is
  general notation. -/

namespace InfixCalculator

namespace Text

/-! ### Numerals -/

theorem length_numeral (n : ℕ) : (numeral n).length = max 1 (digitCount 10 n) := by
  rw [numeral, List.length_map, length_digitsOf]

theorem length_numeral_pos (n : ℕ) : 1 ≤ (numeral n).length := by
  rw [length_numeral]
  omega

theorem length_numeral_le_iff {n k : ℕ} (hk : 1 ≤ k) : (numeral n).length ≤ k ↔ n < 10 ^ k := by
  rw [length_numeral, ← digitCount_le_iff (by decide)]
  omega

theorem length_numeral_of_lt {n : ℕ} (h : n < 10) : (numeral n).length = 1 := by
  have hle := (length_numeral_le_iff (n := n) (Nat.le_refl 1)).mpr (by omega)
  have hpos := length_numeral_pos n
  omega

/-- One more adds one digit at most. -/
theorem length_numeral_le_succ {m n : ℕ} (h : m ≤ n + 1) :
    (numeral m).length ≤ (numeral n).length + 1 := by
  have hn := (length_numeral_le_iff (length_numeral_pos n)).mp (Nat.le_refl _)
  refine (length_numeral_le_iff (by omega)).mpr ?_
  rw [pow_succ]
  omega

/-- A number that is not too small is greater than the number of its digits. -/
theorem length_numeral_add_three_le {n : ℕ} (h : 4 ≤ n) : (numeral n).length + 3 ≤ n := by
  obtain ⟨m, rfl⟩ := Nat.exists_eq_add_of_le' h
  have hpow : m < 10 ^ m := Nat.lt_pow_self (by decide)
  have hle : (numeral (m + 4)).length ≤ m + 1 := by
    refine (length_numeral_le_iff (by omega)).mpr ?_
    rw [pow_succ]
    omega
  omega

end Text

namespace Decimal

open Text

variable {d : Decimal} {mark : Char}

/-! ### Digits of a coefficient -/

/-- How many digits are written for the coefficient. -/
def figures (d : Decimal) : ℕ := max 1 (digitCount 10 d.coefficient)

theorem figures_pos (d : Decimal) : 1 ≤ d.figures := by
  unfold figures
  omega

theorem adjusted_eq (d : Decimal) : d.adjusted = d.exponent + d.figures - 1 := by
  unfold adjusted figures
  omega

theorem figures_of_isZero (h : d.coefficient = 0) : d.figures = 1 := by
  unfold figures
  rw [h, digitCount_zero (by decide)]
  rfl

/-- A coefficient between two powers of ten has the greater one's count of digits. -/
theorem figures_eq_of_bounds {n : ℕ} (hn : 1 ≤ n) (hlow : 10 ^ (n - 1) ≤ d.coefficient)
    (hhigh : d.coefficient < 10 ^ n) : d.figures = n := by
  have hle : digitCount 10 d.coefficient ≤ n := (digitCount_le_iff (by decide)).mpr hhigh
  have hge : ¬ digitCount 10 d.coefficient ≤ n - 1 := fun h =>
    absurd ((digitCount_le_iff (by decide)).mp h) (by omega)
  unfold figures
  omega

theorem length_numeral_coefficient (d : Decimal) : (numeral d.coefficient).length = d.figures :=
  length_numeral _

/-! ### Plain notation -/

theorem length_signText_le (d : Decimal) : d.signText.length ≤ 1 := by
  unfold signText
  split_ifs <;> simp

theorem length_pointed (digits : List Char) (places : ℕ) : (pointed digits places).length =
    if places = 0 then digits.length else max digits.length (places + 1) + 1 := by
  unfold pointed
  split_ifs with h
  · rfl
  · simp only [List.length_append, List.length_take, List.length_cons, List.length_drop,
      List.length_replicate]
    omega

/-- **The length of plain notation**: the sign, the digits before the point, and the point with those
behind it. -/
theorem length_plain (h : d.exponent ≤ 0 ∨ d.isZero = false) : (d.plain.length : ℤ) =
    d.signText.length + max d.adjusted 0 + 1 + if d.exponent < 0 then 1 - d.exponent else 0 := by
  have hfigures := d.length_numeral_coefficient
  have hadjusted := d.adjusted_eq
  have hpos := d.figures_pos
  unfold plain
  dsimp only
  rw [List.length_append]
  by_cases he : d.exponent ≤ 0
  · rw [if_pos he, length_pointed]
    split_ifs <;> omega
  · rw [if_neg he, if_neg (by simpa using h.resolve_left he), if_neg (by omega), List.length_append,
      List.length_replicate]
    omega

/-- The zeros of a positive exponent are not written behind a zero. -/
theorem length_plain_of_isZero (he : 0 < d.exponent) (h : d.isZero = true) :
    d.plain.length = d.signText.length + 1 := by
  have hfigures := figures_of_isZero (isZero_iff.mp h)
  unfold plain
  dsimp only
  rw [List.length_append, if_neg (by omega), if_pos h, d.length_numeral_coefficient, hfigures]

/-! ### Scientific and general notation -/

theorem length_exponentText (mark : Char) (n : ℤ) :
    (exponentText mark n).length = 2 + (numeral n.natAbs).length := by
  unfold exponentText
  rw [List.length_cons, List.length_cons]
  omega

/-- **The length of scientific notation**: the sign, the digits, the point if there is more than one
digit, and the exponent with its mark and its sign. -/
theorem length_scientific (mark : Char) (d : Decimal) : (d.scientific mark).length =
    d.signText.length + d.figures + (if d.figures = 1 then 0 else 1) + 2 +
      (numeral d.adjusted.natAbs).length := by
  have hfigures := d.length_numeral_coefficient
  have hpos := d.figures_pos
  unfold scientific
  simp only [List.length_append, List.length_take, length_exponentText, hfigures]
  split_ifs with h1 h2 h2
  · simp only [List.length_nil]
    omega
  · omega
  · omega
  · rw [List.length_cons, List.length_drop, hfigures]
    omega

theorem isPositional_iff : d.isPositional = true ↔ d.exponent ≤ 0 ∧ -6 ≤ d.adjusted := by
  simp [isPositional]

theorem length_general_of_positional (he : d.exponent ≤ 0) (h : -6 ≤ d.adjusted) :
    ((d.general mark).length : ℤ) =
      d.signText.length + max d.adjusted 0 + 1 + if d.exponent < 0 then 1 - d.exponent else 0 := by
  rw [general, if_pos (isPositional_iff.mpr ⟨he, h⟩), length_plain (.inl he)]

theorem length_general_of_not_positional (h : 0 < d.exponent ∨ d.adjusted < -6) :
    (d.general mark).length = d.signText.length + d.figures + (if d.figures = 1 then 0 else 1) + 2 +
      (numeral d.adjusted.natAbs).length := by
  have hnot : ¬ d.isPositional = true := by
    rw [isPositional_iff]
    omega
  rw [general, if_neg hnot, length_scientific]

end Decimal

end InfixCalculator
