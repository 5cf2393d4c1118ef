import InfixCalculator.Decimal.Basic
import InfixCalculator.Proofs.Rounding.Magnitude

/-! # Decimals as rational numbers

The number that a decimal stands for. Decimals of the same number may differ in their exponents,
and zeros also in their signs.

* `Decimal.toRat`: the number; `toRat_eq_zero_iff`, `toRat_neg_iff`: when it is zero, or below it.
* `log_abs_toRat`: `adjusted` is the exponent of the first digit.
* `OnGrid`: the multiples of a power of ten. -/

namespace InfixCalculator

theorem ten_ne_zero_rat : (10 : ℚ) ≠ 0 := by norm_num

theorem ten_zpow_pos (e : ℤ) : (0 : ℚ) < 10 ^ e := zpow_pos (by norm_num) e

/-! ### Grids -/

/-- The number is a multiple of `10 ^ e`. -/
def OnGrid (e : ℤ) (x : ℚ) : Prop := ∃ n : ℤ, x = n * 10 ^ e

theorem OnGrid.of_le {e e' : ℤ} {x : ℚ} (h : OnGrid e x) (he : e' ≤ e) : OnGrid e' x := by
  obtain ⟨n, rfl⟩ := h
  refine ⟨n * 10 ^ (e - e').toNat, ?_⟩
  push_cast
  rw [mul_assoc, ← zpow_natCast, ← zpow_add₀ ten_ne_zero_rat]
  congr 2
  omega

theorem onGrid_neg {e : ℤ} {x : ℚ} : OnGrid e (-x) ↔ OnGrid e x := by
  constructor
  · rintro ⟨n, h⟩; exact ⟨-n, by push_cast; linarith⟩
  · rintro ⟨n, rfl⟩; exact ⟨-n, by push_cast; ring⟩

theorem OnGrid.roundHalfEven_mul {e : ℤ} {x : ℚ} (h : OnGrid e x) :
    (roundHalfEven (x / 10 ^ e) : ℚ) * 10 ^ e = x := by
  obtain ⟨n, rfl⟩ := h
  rw [mul_div_cancel_right₀ _ (ten_zpow_pos e).ne', roundHalfEven_intCast]

namespace Decimal

/-! ### The number of a decimal -/

/-- The number that a decimal stands for. -/
def toRat (d : Decimal) : ℚ := d.signedCoefficient * 10 ^ d.exponent

variable {d : Decimal}

theorem signedCoefficient_natAbs (d : Decimal) : d.signedCoefficient.natAbs = d.coefficient := by
  unfold signedCoefficient
  split_ifs <;> simp

theorem abs_toRat (d : Decimal) : |d.toRat| = d.coefficient * 10 ^ d.exponent := by
  rw [toRat, abs_mul, abs_of_pos (ten_zpow_pos _), ← Int.cast_abs, Int.abs_eq_natAbs,
    signedCoefficient_natAbs]
  rfl

theorem toRat_of_nonneg (h : d.negative = false) : d.toRat = d.coefficient * 10 ^ d.exponent := by
  simp [toRat, signedCoefficient, h]

theorem toRat_of_negative (h : d.negative = true) :
    d.toRat = -(d.coefficient * 10 ^ d.exponent) := by
  simp [toRat, signedCoefficient, h]

theorem toRat_eq_signed (d : Decimal) :
    d.toRat = if d.negative then -(d.coefficient * 10 ^ d.exponent : ℚ)
      else d.coefficient * 10 ^ d.exponent := by
  cases h : d.negative
  · exact toRat_of_nonneg h
  · exact toRat_of_negative h

@[simp] theorem toRat_neg (d : Decimal) : d.neg.toRat = -d.toRat := by
  unfold toRat signedCoefficient neg
  cases d.negative <;> simp

theorem onGrid_toRat (d : Decimal) : OnGrid d.exponent d.toRat := ⟨d.signedCoefficient, rfl⟩

theorem isZero_iff : d.isZero = true ↔ d.coefficient = 0 := by simp [isZero]

theorem toRat_eq_zero_iff : d.toRat = 0 ↔ d.isZero = true := by
  rw [← abs_eq_zero, abs_toRat, isZero_iff, mul_eq_zero, Nat.cast_eq_zero,
    or_iff_left (ten_zpow_pos _).ne']

theorem toRat_neg_iff : d.toRat < 0 ↔ d.isBelowZero = true := by
  have habs := abs_toRat d
  have hpos : 0 < (10 : ℚ) ^ d.exponent := ten_zpow_pos _
  have hc : (0 : ℚ) ≤ d.coefficient := Nat.cast_nonneg _
  unfold isBelowZero
  cases hn : d.negative
  · rw [toRat_of_nonneg hn]
    simp only [Bool.false_and, Bool.false_eq_true, iff_false, not_lt]
    exact mul_nonneg hc hpos.le
  · rw [toRat_of_negative hn, neg_lt_zero, mul_pos_iff_of_pos_right hpos, Nat.cast_pos,
      Nat.pos_iff_ne_zero]
    simp [isZero]

theorem negative_eq_of_toRat_eq {a b : Decimal} (h : a.toRat = b.toRat) (hz : a.isZero = false) :
    a.negative = b.negative := by
  have hb : b.isZero = false := by
    rw [← Bool.not_eq_true, ← toRat_eq_zero_iff] at hz ⊢
    rwa [← h]
  have := (toRat_neg_iff (d := a)).symm.trans ((by rw [h] : _ ↔ _).trans (toRat_neg_iff (d := b)))
  simp only [isBelowZero, hz, hb, Bool.not_false, Bool.and_true] at this
  exact Bool.eq_iff_iff.mpr this

theorem pow_digitCount_bounds {c : ℕ} (hc : 0 < c) :
    (10 : ℚ) ^ ((digitCount 10 c : ℤ) - 1) ≤ c ∧ (c : ℚ) < 10 ^ (digitCount 10 c : ℤ) := by
  have hpos := digitCount_pos (by decide : 2 ≤ 10) hc
  constructor
  · rw [show ((digitCount 10 c : ℤ) - 1) = ((digitCount 10 c - 1 : ℕ) : ℤ) by omega, zpow_natCast]
    exact_mod_cast pow_pred_digitCount_le (by decide : 2 ≤ 10) hc
  · rw [zpow_natCast]
    exact_mod_cast lt_pow_digitCount (by decide : 2 ≤ 10) c

/-- **The exponent of the first digit** is the logarithm of the number. -/
theorem log_abs_toRat (h : 0 < d.coefficient) : Int.log 10 |d.toRat| = d.adjusted := by
  obtain ⟨hlow, hhigh⟩ := pow_digitCount_bounds h
  have hpos := digitCount_pos (by decide : 2 ≤ 10) h
  have he := ten_zpow_pos d.exponent
  have hadj : d.adjusted = (digitCount 10 d.coefficient : ℤ) - 1 + d.exponent := by
    unfold adjusted; omega
  rw [abs_toRat, hadj]
  refine Magnitude.log_eq_of_bounds (by decide) (mul_pos (by exact_mod_cast h) he) ?_ ?_
  · rw [Nat.cast_ofNat, zpow_add₀ ten_ne_zero_rat]
    exact mul_le_mul_of_nonneg_right hlow he.le
  · rw [Nat.cast_ofNat, show (digitCount 10 d.coefficient : ℤ) - 1 + d.exponent + 1 =
      digitCount 10 d.coefficient + d.exponent by ring, zpow_add₀ ten_ne_zero_rat]
    exact mul_lt_mul_of_pos_right hhigh he

theorem le_abs_toRat_iff (h : 0 < d.coefficient) {e : ℤ} :
    (10 : ℚ) ^ e ≤ |d.toRat| ↔ e ≤ d.adjusted := by
  have hpos : 0 < |d.toRat| := by
    rw [abs_toRat]; exact mul_pos (by exact_mod_cast h) (ten_zpow_pos _)
  rw [← log_abs_toRat h]
  exact Int.zpow_le_iff_le_log (b := 10) (by decide) hpos

end Decimal

end InfixCalculator
