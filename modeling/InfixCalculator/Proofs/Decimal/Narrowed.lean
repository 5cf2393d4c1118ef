import InfixCalculator.Proofs.Decimal.Faithful
import InfixCalculator.Proofs.Decimal.Rounded

/-! # When a width makes a result longer

A text that exceeds the width is shortened by dropping digits, down to one. One digit can take more
room than all of them: where it gains an exponent, as `1e+1` does over `10`, and where it loses one, as
`0.000001` does over `9.6e-7`.

* `Decimal.LongerAsOneDigit`: the texts that one digit exceeds.
* `Decimal.length_significant_lt_iff`, `Decimal.length_plain_lt_iff`: they are exactly these, in
  general notation and in plain notation.
* `Decimal.display_longer_iff`: when the display with a width is longer than without. -/

namespace InfixCalculator

namespace Decimal

open Text

/-- The text is shorter than the one digit that the number is rounded to. Either that digit has an
exponent, and the text three characters at most; or it stands in the sixth place behind the point, and
the text has an exponent and seven characters at most. A minus is not counted. -/
def LongerAsOneDigit (d : Decimal) (text : List Char) : Prop :=
  0 < (d.toDigits 1).exponent ∧ text.length ≤ d.signText.length + 3 ∨
    (d.toDigits 1).exponent = -6 ∧ 'e' ∈ text ∧ text.length ≤ d.signText.length + 7

/-! ### One digit -/

theorem figures_toDigits_one (d : Decimal) : (d.toDigits 1).figures = 1 := by
  have h := figures_toDigits Nat.one_pos d
  have hpos := d.figures_pos
  omega

theorem adjusted_toDigits_one (d : Decimal) : (d.toDigits 1).adjusted = (d.toDigits 1).exponent := by
  have h := (d.toDigits 1).adjusted_eq
  have hfigures := d.figures_toDigits_one
  omega

/-- The two forms of one digit. -/
theorem significant_one_cases (d : Decimal) :
    (-6 ≤ (d.toDigits 1).exponent ∧ (d.toDigits 1).exponent ≤ 0 ∧ 'e' ∉ d.significant 1 ∧
      ((d.significant 1).length : ℤ) = d.signText.length + 1 +
        if (d.toDigits 1).exponent < 0 then 1 - (d.toDigits 1).exponent else 0) ∨
    ((0 < (d.toDigits 1).exponent ∨ (d.toDigits 1).exponent < -6) ∧
      (d.significant 1).length =
        d.signText.length + 3 + (numeral (d.toDigits 1).exponent.natAbs).length) := by
  have h := significant_cases Nat.one_pos d
  rw [d.adjusted_toDigits_one, d.figures_toDigits_one, if_pos rfl] at h
  rcases h with ⟨hle, hge, hmark, hlength⟩ | ⟨hrange, -, hlength⟩
  · exact .inl ⟨hge, hle, hmark, by omega⟩
  · exact .inr ⟨hrange, by omega⟩

/-- One digit is not longer than itself. -/
theorem not_longerAsOneDigit_significant_one (d : Decimal) :
    ¬ d.LongerAsOneDigit (d.significant 1) := by
  have hpos := length_numeral_pos (d.toDigits 1).exponent.natAbs
  unfold LongerAsOneDigit
  rcases d.significant_one_cases with ⟨hge, hle, hmark, -⟩ | ⟨hrange, hlength⟩
  · rintro (⟨hpositive, -⟩ | ⟨-, hmem, -⟩)
    · omega
    · exact hmark hmem
  · omega

/-! ### One digit against many -/

/-- **In general notation** one digit is longer than many in two cases only. -/
theorem length_significant_lt_iff {n : ℕ} (hn : 0 < n) (d : Decimal) :
    (d.significant n).length < (d.significant 1).length ↔ d.LongerAsOneDigit (d.significant n) := by
  rcases toDigits_coarser Nat.one_pos hn d with heq | ⟨hfigures, hexponent, hcarry, hcarry'⟩
  · rw [← significant_congr Nat.one_pos hn heq]
    exact ⟨fun h => absurd h (lt_irrefl _), fun h => absurd h d.not_longerAsOneDigit_significant_one⟩
  · rw [d.figures_toDigits_one] at hfigures
    rw [d.adjusted_toDigits_one] at hcarry hcarry'
    have hadjusted := (d.toDigits n).adjusted_eq
    have hneighbour : (numeral (d.toDigits 1).exponent.natAbs).length ≤
        (numeral (d.toDigits n).adjusted.natAbs).length + 1 := length_numeral_le_succ (by omega)
    have hmany := length_numeral_add_three_le (n := (d.toDigits 1).exponent.natAbs)
    have hfew := length_numeral_of_lt (n := (d.toDigits 1).exponent.natAbs)
    have hseven := length_numeral_of_lt (n := (d.toDigits n).adjusted.natAbs)
    unfold LongerAsOneDigit
    -- Each text is in one of two forms, and in each pair of forms the lengths decide.
    rcases significant_cases hn d with ⟨hle, hge, hmark, hlength⟩ | ⟨hrange, hmark, hlength⟩ <;>
    rcases d.significant_one_cases with ⟨hge', hle', -, hlength'⟩ | ⟨hrange', hlength'⟩ <;>
    simp only [hmark, true_and, false_and, and_false, or_false] <;>
    omega

/-- **In plain notation** one digit is longer than many in one case only. -/
theorem length_plain_lt_iff (d : Decimal) :
    d.plain.length < (d.significant 1).length ↔ d.LongerAsOneDigit d.plain := by
  have hmark : 'e' ∉ d.plain := mark_notMem_plain (.inr rfl) d
  have hcoarser := toDigits_coarser Nat.one_pos d.figures_pos d
  rw [toDigits_figures, d.figures_toDigits_one, d.adjusted_toDigits_one] at hcoarser
  have hadjusted := d.adjusted_eq
  have hpos := length_numeral_pos (d.toDigits 1).exponent.natAbs
  have hmany := length_numeral_add_three_le (n := (d.toDigits 1).exponent.natAbs)
  have hfew := length_numeral_of_lt (n := (d.toDigits 1).exponent.natAbs)
  unfold LongerAsOneDigit
  simp only [hmark, false_and, and_false, or_false]
  by_cases hzero : 0 < d.exponent ∧ d.isZero = true
  · have hlength := length_plain_of_isZero hzero.1 hzero.2
    have hfigures := figures_of_isZero (isZero_iff.mp hzero.2)
    have hkept : (d.toDigits 1).exponent = d.exponent := by
      rw [toDigits_of_figures_le Nat.one_pos hfigures.le]
    rcases d.significant_one_cases with ⟨hge, hle, -, hlength'⟩ | ⟨hrange, hlength'⟩ <;> omega
  · rw [not_and_or, not_lt, Bool.not_eq_true] at hzero
    have hlength := length_plain hzero
    rcases hcoarser with hkept | ⟨hfigures, hexponent, hcarry, hcarry'⟩
    · have hfigures := d.figures_toDigits_one
      have hexponent := congrArg exponent hkept
      rw [hkept] at hfigures
      rcases d.significant_one_cases with ⟨hge, hle, -, hlength'⟩ | ⟨hrange, hlength'⟩ <;> omega
    · rcases d.significant_one_cases with ⟨hge, hle, -, hlength'⟩ | ⟨hrange, hlength'⟩ <;> omega

/-- **What is shown without a width** is shorter than one digit in these cases only. -/
theorem length_baseText_lt_iff (digits : Option ℕ) (d : Decimal) :
    (d.baseText digits).length < (d.significant 1).length ↔
      d.LongerAsOneDigit (d.baseText digits) := by
  cases digits with
  | none => exact d.length_plain_lt_iff
  | some n =>
    rcases Nat.eq_zero_or_pos n with rfl | hn
    · -- No digit counts as one.
      exact length_significant_lt_iff Nat.one_pos d
    · exact length_significant_lt_iff hn d

/-! ### The display -/

/-- If no count of digits fits, one digit is shown. -/
theorem shortened_of_unfit {width : ℤ} {d : Decimal}
    (h : ∀ n, 1 ≤ n → n ≤ 6 → width < (d.significant n).length) :
    d.shortened width = d.significant 1 := by
  obtain ⟨n, hlow, hhigh, hshortened, hfits, -⟩ := shortened_cases width d
  have hone : n = 1 := hfits.resolve_left (not_le.mpr (h n hlow hhigh))
  rw [hshortened, hone]

/-- **A text that is shortened gets longer** if no count of digits fits and one digit is longer. -/
theorem length_lt_shortened_iff {width : ℤ} {text : List Char} (hlong : width < text.length)
    (d : Decimal) : text.length < (d.shortened width).length ↔
      (∀ n, 1 ≤ n → n ≤ 6 → width < (d.significant n).length) ∧
        text.length < (d.significant 1).length := by
  constructor
  · intro hlonger
    obtain ⟨n, -, -, hshortened, hfits, hmore⟩ := shortened_cases width d
    rw [hshortened] at hlonger
    have hone : n = 1 := hfits.resolve_left (by omega)
    subst hone
    refine ⟨fun m hm hm6 => ?_, hlonger⟩
    rcases Nat.eq_or_lt_of_le hm with rfl | hlt
    · omega
    · exact hmore m hlt hm6
  · rintro ⟨hunfit, hlonger⟩
    rwa [shortened_of_unfit hunfit]

/-- **When a width makes a result longer**: the text exceeds it, so do all texts of one to six
significant digits, and one digit, which is then shown, is longer than the text. A width of eight
characters or more never makes a result longer. -/
theorem display_longer_iff (v : Decimal) (digits : Option ℕ) (w : ℤ)
    (hdigits : ∀ n, digits = some n → n ≤ 999999999999999999) :
    ∃ wide shown, v.display ⟨.ofOption (digits.map Nat.cast), .unset⟩ = .ok wide ∧
      v.display ⟨.ofOption (digits.map Nat.cast), .value w⟩ = .ok shown ∧
      (wide.length < shown.length ↔ w < wide.length ∧
        (∀ n, 1 ≤ n → n ≤ 6 → w < (v.significant n).length) ∧ v.LongerAsOneDigit wide) ∧
      (wide.length < shown.length → shown = v.significant 1) ∧
      (8 ≤ w → shown.length ≤ wide.length) := by
  refine ⟨_, _, display_eq_ok hdigits none v, display_eq_ok hdigits (some w) v, ?_⟩
  set wide := v.baseText digits
  have hkept : v.narrowed none wide = wide := rfl
  rw [hkept]
  have hone : wide.length < (v.significant 1).length ↔ v.LongerAsOneDigit wide :=
    length_baseText_lt_iff digits v
  by_cases hfits : (wide.length : ℤ) ≤ w
  · rw [narrowed_of_fits (fun _ hw => Option.some.inj hw ▸ hfits)]
    exact ⟨by omega, fun h => absurd h (lt_irrefl _), fun _ => le_rfl⟩
  · have hlong : w < wide.length := by omega
    have hlonger := length_lt_shortened_iff hlong v
    rw [narrowed_of_lt hlong, ← hone]
    refine ⟨by simpa only [hlong, true_and] using hlonger, fun h => ?_, fun h8 => ?_⟩
    · exact shortened_of_unfit (hlonger.mp h).1
    · by_contra hnot
      have hshort := hone.mp (hlonger.mp (by omega)).2
      have hsign := v.length_signText_le
      unfold LongerAsOneDigit at hshort
      omega

/-- The number ten on one character. -/
theorem display_ten_longer :
    ∃ wide shown, (⟨false, 10, 0⟩ : Decimal).display ⟨.unset, .unset⟩ = .ok wide ∧
      (⟨false, 10, 0⟩ : Decimal).display ⟨.unset, .value 1⟩ = .ok shown ∧
      ¬ shown.length ≤ wide.length :=
  ⟨"10".toList, "1e+1".toList, by decide +kernel, by decide +kernel, by decide⟩

/-- `9.6e-7` on five characters: its one digit stands in the sixth place. -/
theorem display_longer_sixth : ∃ wide shown,
    (⟨false, 96, -8⟩ : Decimal).display ⟨.value 2, .unset⟩ = .ok wide ∧
      (⟨false, 96, -8⟩ : Decimal).display ⟨.value 2, .value 5⟩ = .ok shown ∧
      wide = "9.6e-7".toList ∧ shown = "0.000001".toList := by
  obtain ⟨wide, shown, hwide, hshown, hiff, hone, -⟩ :=
    display_longer_iff ⟨false, 96, -8⟩ (some 2) 5 fun n hn => by cases hn; decide
  have hbase : wide = (⟨false, 96, -8⟩ : Decimal).significant 2 := (Except.ok.inj hwide).symm
  have htext : (⟨false, 96, -8⟩ : Decimal).significant 2 = "9.6e-7".toList := by decide +kernel
  have hdigit : (⟨false, 96, -8⟩ : Decimal).significant 1 = "0.000001".toList := by decide +kernel
  have hunfit : ∀ n, 1 ≤ n → n ≤ 6 → (5 : ℤ) < ((⟨false, 96, -8⟩ : Decimal).significant n).length := by
    intro n hlow hhigh
    interval_cases n <;> decide +kernel
  have hlonger : (⟨false, 96, -8⟩ : Decimal).LongerAsOneDigit wide := by
    rw [hbase, htext]
    exact .inr (by decide +kernel)
  rw [hbase, htext] at hwide hlonger hiff hone
  have hshown' := hone (hiff.mpr ⟨by decide, hunfit, hlonger⟩)
  rw [hshown', hdigit] at hshown
  exact ⟨_, _, hwide, hshown, rfl, rfl⟩

end Decimal

end InfixCalculator
