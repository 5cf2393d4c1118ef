import InfixCalculator.Proofs.Decimal.Length
import InfixCalculator.Proofs.Decimal.Reading
import InfixCalculator.Proofs.Decimal.Significant

/-! # The form of a rounded decimal

* `Decimal.figures_toDigits`: rounding leaves the wanted digits, or all of them if there are fewer.
* `Decimal.adjusted_toDigits`: the first digit stays in its place, or moves by one if there is a carry.
* `Decimal.toDigits_coarser`: how a decimal rounded to fewer digits differs from the one rounded to
  more.
* `Decimal.significant_cases`: the length of significant digits without and with an exponent.
* `roundSignificant_of_le`: what rounding to many digits makes a number of few is made so by any count
  of digits in between. -/

namespace InfixCalculator

/-! ### Rounded numbers -/

/-- **Rounding to fewer digits in one step.** If rounding to `n` digits gives what rounding to some
lesser count of digits gives, so does rounding to any count in between. -/
theorem roundSignificant_of_le {d k n : ℕ} {x : ℚ} (hdk : d ≤ k) (hkn : k < n)
    (h : roundSignificant n x = roundSignificant d x) :
    roundSignificant k x = roundSignificant n x := by
  set a := Int.log 10 |x| with ha
  -- The number is on the grid of `d` digits, hence on that of `k` digits.
  have hgrid : OnGrid (a - ((k : ℤ) - 1)) (roundSignificant n x) :=
    OnGrid.of_le ⟨_, h⟩ (by omega)
  obtain ⟨m, hm⟩ := hgrid
  have hcoarse : (0 : ℚ) < 10 ^ (a - ((k : ℤ) - 1)) := ten_zpow_pos _
  have hfine : (0 : ℚ) < 10 ^ (a - ((n : ℤ) - 1)) := ten_zpow_pos _
  have hless : (10 : ℚ) ^ (a - ((n : ℤ) - 1)) < 10 ^ (a - ((k : ℤ) - 1)) :=
    zpow_lt_zpow_right₀ (by norm_num) (by omega)
  have hnear : |x - roundSignificant n x| ≤ 1 / 2 * 10 ^ (a - ((n : ℤ) - 1)) := by
    have hhalf := abs_sub_roundHalfEven_le (x / 10 ^ (a - ((n : ℤ) - 1)))
    have hscaled := mul_le_mul_of_nonneg_right hhalf hfine.le
    rw [← abs_of_pos hfine, ← abs_mul, abs_of_pos hfine, sub_mul, div_mul_cancel₀ _ hfine.ne']
      at hscaled
    exact hscaled
  have hm' : |x / 10 ^ (a - ((k : ℤ) - 1)) - m| < 1 / 2 := by
    have hdiff : x / 10 ^ (a - ((k : ℤ) - 1)) - m =
        (x - roundSignificant n x) / 10 ^ (a - ((k : ℤ) - 1)) := by
      rw [hm, sub_div, mul_div_cancel_right₀ _ hcoarse.ne']
    rw [hdiff, abs_div, abs_of_pos hcoarse, div_lt_iff₀ hcoarse]
    linarith
  rw [hm, roundSignificant, ← ha, roundHalfEven_of_abs_sub_lt hm']

namespace Decimal

variable {digits m n : ℕ}

/-! ### Digits and the place of the first one -/

theorem signText_toDigits (digits : ℕ) (d : Decimal) : (d.toDigits digits).signText = d.signText :=
  rfl

/-- A decimal with no more digits is kept. -/
theorem toDigits_of_figures_le (hdigits : 0 < digits) {d : Decimal} (h : d.figures ≤ digits) :
    d.toDigits digits = d := by
  refine toDigits_of_le hdigits ?_
  unfold figures at h
  omega

/-- Of a decimal with more digits the wanted ones are left, and a carry moves the first of them. -/
theorem figures_and_adjusted_of_lt (hdigits : 0 < digits) {d : Decimal} (h : digits < d.figures) :
    (d.toDigits digits).figures = digits ∧
      ((d.toDigits digits).adjusted = d.adjusted ∨
        (d.toDigits digits).adjusted = d.adjusted + 1) := by
  have hcoefficient : 0 < d.coefficient := by
    rcases Nat.eq_zero_or_pos d.coefficient with h0 | hpos
    · rw [figures_of_isZero h0] at h
      omega
    · exact hpos
  have hadjusted := d.adjusted_eq
  have hquantum : d.adjusted - ((digits : ℤ) - 1) =
      max (d.adjusted - ((digits : ℤ) - 1)) d.exponent := by omega
  have hrounded := (d.toDigits digits).adjusted_eq
  rcases toDigits_cases hdigits hcoefficient hquantum rfl with ⟨hc, he, hlt⟩ | ⟨hc, he, -⟩
  · have hlow : (10 : ℤ) ^ (digits - 1) ≤ (d.toDigits digits).coefficient := by
      rw [hc]
      refine le_roundHalfEven ?_
      rw [le_div_iff₀ (ten_zpow_pos _)]
      push_cast
      rw [← zpow_natCast, ← zpow_add₀ ten_ne_zero_rat]
      refine (le_abs_toRat_iff hcoefficient).mpr ?_
      omega
    have hfigures : (d.toDigits digits).figures = digits := by
      refine figures_eq_of_bounds hdigits (by exact_mod_cast hlow) ?_
      rw [← hc] at hlt
      exact_mod_cast hlt
    exact ⟨hfigures, .inl (by omega)⟩
  · have hfigures : (d.toDigits digits).figures = digits := by
      refine figures_eq_of_bounds hdigits hc.ge ?_
      rw [hc]
      exact Nat.pow_lt_pow_right (by decide) (by omega)
    exact ⟨hfigures, .inr (by omega)⟩

/-- **Rounding leaves the wanted digits**, or all of them if there are fewer. -/
theorem figures_toDigits (hdigits : 0 < digits) (d : Decimal) :
    (d.toDigits digits).figures = min digits d.figures := by
  rcases Nat.lt_or_ge digits d.figures with hmany | hfew
  · have h := (figures_and_adjusted_of_lt hdigits hmany).1
    omega
  · rw [toDigits_of_figures_le hdigits hfew]
    omega

/-- **The first digit stays in its place**, or moves by one if digits are dropped. -/
theorem adjusted_toDigits (hdigits : 0 < digits) (d : Decimal) :
    (d.toDigits digits).adjusted = d.adjusted ∨
      digits < d.figures ∧ (d.toDigits digits).adjusted = d.adjusted + 1 := by
  rcases Nat.lt_or_ge digits d.figures with hmany | hfew
  · rcases (figures_and_adjusted_of_lt hdigits hmany).2 with h | h
    · exact .inl h
    · exact .inr ⟨hmany, h⟩
  · rw [toDigits_of_figures_le hdigits hfew]
    exact .inl rfl

/-! ### Fewer digits and more -/

/-- **Rounding to fewer digits** gives the same decimal as rounding to more, or one that has fewer
digits, no lesser exponent, and its first digit in the same place or in the one beside it. -/
theorem toDigits_coarser (hm : 0 < m) (hmn : m ≤ n) (d : Decimal) : d.toDigits m = d.toDigits n ∨
    (d.toDigits m).figures < (d.toDigits n).figures ∧
      (d.toDigits n).exponent ≤ (d.toDigits m).exponent ∧
      (d.toDigits m).adjusted ≤ (d.toDigits n).adjusted + 1 ∧
      (d.toDigits n).adjusted ≤ (d.toDigits m).adjusted + 1 := by
  have hn : 0 < n := by omega
  rcases Nat.lt_or_ge m d.figures with hmany | hfew
  · rcases Nat.eq_or_lt_of_le hmn with rfl | hlt
    · exact .inl rfl
    · have hfm := figures_toDigits hm d
      have hfn := figures_toDigits hn d
      have hem := (d.toDigits m).adjusted_eq
      have hen := (d.toDigits n).adjusted_eq
      have ham := adjusted_toDigits hm d
      have han := adjusted_toDigits hn d
      exact .inr ⟨by omega, by omega, by omega, by omega⟩
  · left
    rw [toDigits_of_figures_le hm hfew, toDigits_of_figures_le hn (by omega)]

/-- A decimal is what rounding to its own digits gives. -/
theorem toDigits_figures (d : Decimal) : d.toDigits d.figures = d :=
  toDigits_of_figures_le d.figures_pos (Nat.le_refl _)

/-! ### Significant digits -/

theorem significant_congr (hm : 0 < m) (hn : 0 < n) {d : Decimal}
    (h : d.toDigits m = d.toDigits n) : d.significant m = d.significant n := by
  rw [significant, significant, max_eq_left hm, max_eq_left hn, h]

/-- **The two forms of significant digits**, with their lengths. -/
theorem significant_cases (hn : 0 < n) (d : Decimal) :
    ((d.toDigits n).exponent ≤ 0 ∧ -6 ≤ (d.toDigits n).adjusted ∧ 'e' ∉ d.significant n ∧
      ((d.significant n).length : ℤ) = d.signText.length + max (d.toDigits n).adjusted 0 + 1 +
        if (d.toDigits n).exponent < 0 then 1 - (d.toDigits n).exponent else 0) ∨
    ((0 < (d.toDigits n).exponent ∨ (d.toDigits n).adjusted < -6) ∧ 'e' ∈ d.significant n ∧
      (d.significant n).length = d.signText.length + (d.toDigits n).figures +
        (if (d.toDigits n).figures = 1 then 0 else 1) + 2 +
          (Text.numeral (d.toDigits n).adjusted.natAbs).length) := by
  have hmax : max n 1 = n := by omega
  have hmark := mark_mem_general_iff (.inr rfl : IsMark 'e') (d.toDigits n)
  rw [significant, hmax, ← signText_toDigits n d]
  by_cases h : (d.toDigits n).exponent ≤ 0 ∧ -6 ≤ (d.toDigits n).adjusted
  · refine .inl ⟨h.1, h.2, fun hmem => ?_, length_general_of_positional h.1 h.2⟩
    have hscientific := hmark.mp hmem
    omega
  · have hscientific : 0 < (d.toDigits n).exponent ∨ (d.toDigits n).adjusted < -6 := by omega
    exact .inr ⟨hscientific, hmark.mpr hscientific, length_general_of_not_positional hscientific⟩

end Decimal

end InfixCalculator
