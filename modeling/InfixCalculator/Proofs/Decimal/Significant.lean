import InfixCalculator.Proofs.Decimal.Value

/-! # Rounding to significant digits

* `roundSignificant`: a number rounded to a count of significant digits, said without decimals.
* `Decimal.toDigits_of_le`: a decimal with no more digits is kept; `coefficient_toDigits_lt`: no more
  digits are left.
* `Decimal.toRat_toDigits`: the number of the rounded decimal is the rounded number. -/

namespace InfixCalculator

/-- The number with `digits` significant digits that is nearest to `x`, a half going to the even
neighbour. -/
def roundSignificant (digits : ℕ) (x : ℚ) : ℚ :=
  roundHalfEven (x / 10 ^ (Int.log 10 |x| - (digits - 1))) * 10 ^ (Int.log 10 |x| - (digits - 1))

theorem roundSignificant_neg (digits : ℕ) (x : ℚ) :
    roundSignificant digits (-x) = -roundSignificant digits x := by
  rw [roundSignificant, roundSignificant, abs_neg, neg_div, roundHalfEven_neg]
  push_cast
  ring

theorem roundSignificant_of_onGrid {digits : ℕ} {x : ℚ}
    (h : OnGrid (Int.log 10 |x| - (digits - 1)) x) : roundSignificant digits x = x :=
  h.roundHalfEven_mul

namespace Decimal

variable {d : Decimal} {digits : ℕ}

/-! ### Few digits -/

theorem toRat_magnitude (d : Decimal) : d.magnitude.toRat 10 = |d.toRat| := by
  rw [Magnitude.toRat, magnitude, abs_toRat]
  simp

/-- A zero is kept, with its sign and its exponent. -/
theorem toDigits_of_isZero (hdigits : 0 < digits) (h : d.coefficient = 0) :
    d.toDigits digits = d := by
  have hquantum : max (d.magnitude.order 10 - (digits - 1)) d.exponent = d.exponent := by
    have horder : d.magnitude.order 10 ≤ d.exponent := by
      simp only [magnitude, Magnitude.order, h, digitCount_zero (by decide : 2 ≤ 10)]
      split_ifs <;> omega
    omega
  have hunits : d.magnitude.units 10 d.exponent = 0 := by
    simp [magnitude, Magnitude.units, h, nearest_one]
  have hrounded : d.magnitude.rounded 10 digits d.exponent = (0, d.exponent) := by
    rw [Magnitude.rounded]
    simp only [hquantum, hunits, digitCount_zero (by decide : 2 ≤ 10), Nat.not_lt_zero, if_false]
  rw [toDigits]
  simp only [hrounded]
  rw [← h]

/-- What rounding does with a decimal that is not zero. -/
theorem toDigits_cases (hdigits : 0 < digits) (h : 0 < d.coefficient) {quantum n : ℤ}
    (hquantum : quantum = max (d.adjusted - (digits - 1)) d.exponent)
    (hn : n = roundHalfEven (|d.toRat| / 10 ^ quantum)) :
    ((d.toDigits digits).coefficient = n ∧ (d.toDigits digits).exponent = quantum ∧
        n < 10 ^ digits) ∨
      ((d.toDigits digits).coefficient = 10 ^ (digits - 1) ∧
        (d.toDigits digits).exponent = quantum + 1 ∧ n = 10 ^ digits) := by
  refine Magnitude.rounded_eq (by decide) h Nat.one_pos hdigits d.exponent ?_ ?_
  · rw [toRat_magnitude, hquantum, ← log_abs_toRat h]
  · rw [toRat_magnitude, hn]
    rfl

/-- **A decimal with no more digits is kept.** -/
theorem toDigits_of_le (hdigits : 0 < digits) (h : digitCount 10 d.coefficient ≤ digits) :
    d.toDigits digits = d := by
  rcases Nat.eq_zero_or_pos d.coefficient with h0 | hpos
  · exact toDigits_of_isZero hdigits h0
  · have hcount := digitCount_pos (by decide : 2 ≤ 10) hpos
    have hquantum : d.exponent = max (d.adjusted - (digits - 1)) d.exponent := by
      rw [adjusted]
      omega
    have hn : (d.coefficient : ℤ) = roundHalfEven (|d.toRat| / 10 ^ d.exponent) := by
      have hunits : |d.toRat| / 10 ^ d.exponent = ((d.coefficient : ℤ) : ℚ) := by
        rw [abs_toRat, mul_div_cancel_right₀ _ (ten_zpow_pos _).ne', Int.cast_natCast]
      rw [hunits, roundHalfEven_intCast]
    have hlt : (d.coefficient : ℤ) < 10 ^ digits := by
      exact_mod_cast (digitCount_le_iff (by decide)).mp h
    rcases toDigits_cases hdigits hpos hquantum hn with ⟨hc, he, -⟩ | ⟨-, -, hn'⟩
    · have hcoefficient : (d.toDigits digits).coefficient = d.coefficient := by exact_mod_cast hc
      calc d.toDigits digits
          = ⟨d.negative, (d.toDigits digits).coefficient, (d.toDigits digits).exponent⟩ := rfl
        _ = d := by rw [hcoefficient, he]
    · omega

/-! ### Rounding -/

/-- **No more digits are left** than are wanted. -/
theorem coefficient_toDigits_lt (hdigits : 0 < digits) (d : Decimal) :
    (d.toDigits digits).coefficient < 10 ^ digits := by
  rcases Nat.eq_zero_or_pos d.coefficient with h0 | hpos
  · rw [toDigits_of_isZero hdigits h0, h0]
    positivity
  · rcases toDigits_cases hdigits hpos rfl rfl with ⟨hc, -, hlt⟩ | ⟨hc, -, -⟩
    · rw [← hc] at hlt
      exact_mod_cast hlt
    · rw [hc]
      exact Nat.pow_lt_pow_right (by decide) (by omega)

/-- **Rounding a decimal rounds its number.** -/
theorem toRat_toDigits (hdigits : 0 < digits) (d : Decimal) :
    (d.toDigits digits).toRat = roundSignificant digits d.toRat := by
  rcases Nat.lt_or_ge digits (digitCount 10 d.coefficient) with hmany | hfew
  · have hpos : 0 < d.coefficient := by
      by_contra h0
      rw [Nat.eq_zero_of_not_pos h0, digitCount_zero (by decide)] at hmany
      omega
    have hquantum : d.adjusted - (digits - 1) = max (d.adjusted - (digits - 1)) d.exponent := by
      rw [adjusted]
      omega
    -- Both the nearest number of units and, where there is a carry, its tenth are the same number.
    have hvalue : ((d.toDigits digits).coefficient : ℚ) * 10 ^ (d.toDigits digits).exponent =
        roundSignificant digits |d.toRat| := by
      rw [roundSignificant, abs_abs, log_abs_toRat hpos]
      rcases toDigits_cases hdigits hpos hquantum rfl with ⟨hc, he, -⟩ | ⟨hc, he, hn⟩
      · rw [← hc, he, Int.cast_natCast]
      · rw [hn, hc, he, zpow_add₀ ten_ne_zero_rat]
        obtain ⟨m, rfl⟩ := Nat.exists_eq_succ_of_ne_zero hdigits.ne'
        push_cast
        rw [pow_succ]
        ring
    cases hnegative : d.negative with
    | false =>
      have hsign : (d.toDigits digits).negative = false := hnegative
      rw [toRat_of_nonneg hsign, hvalue, abs_toRat, ← toRat_of_nonneg hnegative]
    | true =>
      have hsign : (d.toDigits digits).negative = true := hnegative
      have habs : |d.toRat| = -d.toRat := by rw [abs_toRat, toRat_of_negative hnegative, neg_neg]
      rw [toRat_of_negative hsign, hvalue, habs, roundSignificant_neg, neg_neg]
  · rw [toDigits_of_le hdigits hfew]
    rcases Nat.eq_zero_or_pos d.coefficient with h0 | hpos
    · have hzero : d.toRat = 0 := toRat_eq_zero_iff.mpr (isZero_iff.mpr h0)
      rw [hzero]
      exact (roundSignificant_of_onGrid ⟨0, by simp⟩).symm
    · refine (roundSignificant_of_onGrid ((onGrid_toRat d).of_le ?_)).symm
      rw [log_abs_toRat hpos, adjusted]
      have hcount := digitCount_pos (by decide : 2 ≤ 10) hpos
      omega

end Decimal

end InfixCalculator
