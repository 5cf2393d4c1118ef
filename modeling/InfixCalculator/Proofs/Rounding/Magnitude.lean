import InfixCalculator.Proofs.Rounding.HalfEven
import Mathlib.Data.Int.Log

/-! # Magnitudes as rational numbers

What the integer arithmetic of `Magnitude` computes, said of the rational number that a magnitude
stands for.

* `digitCount_eq_log`, `order_eq_log`: digits are counted, and first digits placed, by logarithms.
* `units_eq`: `units` rounds half to even on the grid of its quantum.
* `rounded_eq`: `rounded` does so on the coarser one of two grids: that of the wanted digits and
  that of the least exponent. It stays within the digits, and moves to the next exponent only when
  the carry reaches a power of the base. -/

namespace InfixCalculator

/-! ### Counting digits -/

theorem digitCount_zero {base : ℕ} (hb : 2 ≤ base) : digitCount base 0 = 0 := by
  simp [digitCount, enoughDepth, countWithin, show base ≠ 0 by omega]

theorem digitCount_pos {base n : ℕ} (hb : 2 ≤ base) (hn : 0 < n) : 0 < digitCount base n := by
  rcases Nat.eq_zero_or_pos (digitCount base n) with h | h
  · have := lt_pow_digitCount hb n
    rw [h, pow_zero] at this
    omega
  · exact h

theorem pow_pred_digitCount_le {base n : ℕ} (hb : 2 ≤ base) (hn : 0 < n) :
    base ^ (digitCount base n - 1) ≤ n := by
  have h := pow_digitCount_le hb hn
  obtain ⟨k, hk⟩ := Nat.exists_eq_succ_of_ne_zero (digitCount_pos hb hn).ne'
  rw [hk, Nat.succ_eq_add_one, pow_succ, mul_comm] at h
  rw [hk]
  exact Nat.le_of_mul_le_mul_left h (by omega)

theorem digitCount_eq_log {base n : ℕ} (hb : 2 ≤ base) (hn : 0 < n) :
    digitCount base n = Nat.log base n + 1 := by
  have hpos := digitCount_pos hb hn
  have h := (Nat.log_eq_iff (b := base) (m := digitCount base n - 1) (n := n)
    (Or.inr ⟨by omega, hn.ne'⟩)).mpr ⟨pow_pred_digitCount_le hb hn, by
      rw [Nat.sub_add_cancel hpos]; exact lt_pow_digitCount hb n⟩
  omega

theorem digitCount_le_iff {base n k : ℕ} (hb : 2 ≤ base) :
    digitCount base n ≤ k ↔ n < base ^ k := by
  constructor
  · intro h
    exact (lt_pow_digitCount hb n).trans_le (Nat.pow_le_pow_right (by omega) h)
  · intro h
    by_contra hk
    rcases Nat.eq_zero_or_pos n with rfl | hn
    · rw [digitCount_zero hb] at hk; omega
    · have h1 := pow_pred_digitCount_le hb hn
      have h2 : base ^ k ≤ base ^ (digitCount base n - 1) :=
        Nat.pow_le_pow_right (by omega) (by omega)
      omega

/-! ### The rational number -/

theorem zpow_toNat_div {b : ℚ} (hb : b ≠ 0) (n : ℤ) : b ^ n.toNat / b ^ (-n).toNat = b ^ n := by
  rw [← zpow_natCast, ← zpow_natCast, ← zpow_sub₀ hb]
  congr 1
  omega

namespace Magnitude

/-- The number that a magnitude stands for. -/
def toRat (base : ℕ) (x : Magnitude) : ℚ := x.numerator / x.denominator * (base : ℚ) ^ x.scale

variable {base : ℕ} {x : Magnitude}

theorem toRat_pos (hb : 2 ≤ base) (hn : 0 < x.numerator) (hd : 0 < x.denominator) :
    0 < x.toRat base := by
  have hb' : (0 : ℚ) < base := by exact_mod_cast (by omega : 0 < base)
  have hn' : (0 : ℚ) < x.numerator := by exact_mod_cast hn
  have hd' : (0 : ℚ) < x.denominator := by exact_mod_cast hd
  exact mul_pos (div_pos hn' hd') (zpow_pos hb' _)

/-- A number between two consecutive powers has the lesser exponent as its logarithm. -/
theorem log_eq_of_bounds (hb : 2 ≤ base) {y : ℚ} (hy : 0 < y) {k : ℤ} (h : (base : ℚ) ^ k ≤ y)
    (h' : y < (base : ℚ) ^ (k + 1)) : Int.log base y = k := by
  have h1 := (Int.zpow_le_iff_le_log (b := base) (by omega) hy).mp h
  have h2 := (Int.lt_zpow_iff_log_lt (b := base) (by omega) hy).mp h'
  omega

theorem order_eq_log (hb : 2 ≤ base) (hn : 0 < x.numerator) (hd : 0 < x.denominator) :
    x.order base = Int.log base (x.toRat base) := by
  have hbn : (base : ℚ) ≠ 0 := by exact_mod_cast (by omega : base ≠ 0)
  have hb' : (0 : ℚ) < base := by exact_mod_cast (by omega : 0 < base)
  have hd' : (0 : ℚ) < x.denominator := by exact_mod_cast hd
  set i := digitCount base x.numerator with hi
  set j := digitCount base x.denominator with hj
  have hi0 : 0 < i := digitCount_pos hb hn
  have hj0 : 0 < j := digitCount_pos hb hd
  set k : ℤ := (i : ℤ) - j with hk
  -- the quotient lies between the powers `k - 1` and `k + 1`
  have hupper : (x.numerator / x.denominator : ℚ) < (base : ℚ) ^ (k + 1) := by
    have h1 : (x.numerator : ℚ) < (base : ℚ) ^ (i : ℤ) := by
      rw [zpow_natCast]; exact_mod_cast lt_pow_digitCount hb x.numerator
    have h2 : (base : ℚ) ^ ((j : ℤ) - 1) ≤ x.denominator := by
      rw [show ((j : ℤ) - 1) = ((j - 1 : ℕ) : ℤ) by omega, zpow_natCast]
      exact_mod_cast pow_pred_digitCount_le hb hd
    rw [div_lt_iff₀ hd']
    calc (x.numerator : ℚ) < (base : ℚ) ^ (i : ℤ) := h1
      _ = (base : ℚ) ^ (k + 1) * (base : ℚ) ^ ((j : ℤ) - 1) := by
        rw [← zpow_add₀ hbn]; congr 1; omega
      _ ≤ (base : ℚ) ^ (k + 1) * x.denominator :=
        mul_le_mul_of_nonneg_left h2 (zpow_pos hb' _).le
  have hlower : (base : ℚ) ^ (k - 1) ≤ (x.numerator / x.denominator : ℚ) := by
    have h1 : (base : ℚ) ^ ((i : ℤ) - 1) ≤ x.numerator := by
      rw [show ((i : ℤ) - 1) = ((i - 1 : ℕ) : ℤ) by omega, zpow_natCast]
      exact_mod_cast pow_pred_digitCount_le hb hn
    have h2 : (x.denominator : ℚ) ≤ (base : ℚ) ^ (j : ℤ) := by
      rw [zpow_natCast]; exact_mod_cast (lt_pow_digitCount hb x.denominator).le
    rw [le_div_iff₀ hd']
    calc (base : ℚ) ^ (k - 1) * x.denominator ≤ (base : ℚ) ^ (k - 1) * (base : ℚ) ^ (j : ℤ) :=
        mul_le_mul_of_nonneg_left h2 (zpow_pos hb' _).le
      _ = (base : ℚ) ^ ((i : ℤ) - 1) := by rw [← zpow_add₀ hbn]; congr 1; omega
      _ ≤ x.numerator := h1
  -- the comparison of products decides between the two
  have htest : x.denominator * base ^ k.toNat ≤ x.numerator * base ^ (-k).toNat ↔
      (base : ℚ) ^ k ≤ (x.numerator / x.denominator : ℚ) := by
    rw [← zpow_toNat_div hbn k, div_le_div_iff₀ (pow_pos hb' _) hd', ← Nat.cast_le (α := ℚ)]
    push_cast
    rw [mul_comm ((base : ℚ) ^ k.toNat)]
  have hscale : ∀ l : ℤ, (base : ℚ) ^ l ≤ (x.numerator / x.denominator : ℚ) →
      (x.numerator / x.denominator : ℚ) < (base : ℚ) ^ (l + 1) →
      Int.log base (x.toRat base) = x.scale + l := by
    intro l h1 h2
    have hs : (0 : ℚ) < (base : ℚ) ^ x.scale := zpow_pos hb' _
    refine log_eq_of_bounds hb (toRat_pos hb hn hd) ?_ ?_
    · rw [zpow_add₀ hbn, mul_comm, toRat]
      exact mul_le_mul_of_nonneg_right h1 hs.le
    · rw [add_assoc, zpow_add₀ hbn, mul_comm, toRat]
      exact mul_lt_mul_of_pos_right h2 hs
  unfold order
  simp only [← hi, ← hj, ← hk]
  split_ifs with h
  · exact (hscale k (htest.mp h) hupper).symm
  · rw [hscale (k - 1) hlower (by rw [sub_add_cancel]; exact not_le.mp fun h' => h (htest.mpr h'))]
    omega

theorem units_eq (hb : 0 < base) (hd : 0 < x.denominator) (quantum : ℤ) :
    (x.units base quantum : ℤ) = roundHalfEven (x.toRat base / (base : ℚ) ^ quantum) := by
  have hbn : (base : ℚ) ≠ 0 := by exact_mod_cast hb.ne'
  unfold units
  rw [nearest_eq_roundHalfEven _ (Nat.mul_pos hd (Nat.pow_pos hb))]
  congr 1
  push_cast
  rw [mul_div_mul_comm, show quantum - x.scale = -(x.scale - quantum) by ring, zpow_toNat_div hbn,
    zpow_sub₀ hbn, toRat, mul_div_assoc]

/-- **Rounding** to `digits` digits, or coarser on the grid of `least`. -/
theorem rounded_eq (hb : 2 ≤ base) (hn : 0 < x.numerator) (hd : 0 < x.denominator) {digits : ℕ}
    (hdigits : 0 < digits) (least : ℤ) {quantum n : ℤ}
    (hq : quantum = max (Int.log base (x.toRat base) - (digits - 1)) least)
    (hround : n = roundHalfEven (x.toRat base / (base : ℚ) ^ quantum)) :
    (((x.rounded base digits least).1 : ℤ) = n ∧ (x.rounded base digits least).2 = quantum ∧
        n < (base : ℤ) ^ digits) ∨
      ((x.rounded base digits least).1 = base ^ (digits - 1) ∧
        (x.rounded base digits least).2 = quantum + 1 ∧ n = (base : ℤ) ^ digits) := by
  have hbn : (base : ℚ) ≠ 0 := by exact_mod_cast (by omega : base ≠ 0)
  have hb' : (0 : ℚ) < base := by exact_mod_cast (by omega : 0 < base)
  have hunits := units_eq (x := x) (by omega : 0 < base) hd quantum
  rw [← hround] at hunits
  have hle : n ≤ (base : ℤ) ^ digits := by
    rw [hround]
    refine roundHalfEven_le ?_
    have h1 := Int.lt_zpow_succ_log_self (b := base) (by omega) (x.toRat base)
    rw [div_le_iff₀ (zpow_pos hb' _), Int.cast_pow, Int.cast_natCast, ← zpow_natCast,
      ← zpow_add₀ hbn]
    refine h1.le.trans (zpow_le_zpow_right₀ (by exact_mod_cast (by omega : 1 ≤ base)) ?_)
    omega
  unfold rounded
  simp only [order_eq_log hb hn hd, ← hq]
  have hcast : ((base ^ digits : ℕ) : ℤ) = (base : ℤ) ^ digits := by push_cast; rfl
  split_ifs with h
  · right
    have hge : base ^ digits ≤ x.units base quantum :=
      not_lt.mp fun hlt => absurd ((digitCount_le_iff hb).mpr hlt) (not_le.mpr h)
    have heq : x.units base quantum = base ^ digits := by
      zify at hge ⊢
      exact le_antisymm (hunits ▸ hle) hge
    refine ⟨?_, rfl, by rw [← hunits, heq]; exact hcast⟩
    rw [heq]
    exact Nat.div_eq_of_eq_mul_left (by omega) (by rw [← pow_succ, Nat.sub_add_cancel hdigits])
  · left
    refine ⟨hunits, rfl, ?_⟩
    have := (digitCount_le_iff hb).mp (not_lt.mp h)
    omega

end Magnitude

end InfixCalculator
