import InfixCalculator.Proofs.Decimal.CorrectRounding
import Mathlib.Data.Nat.Prime.Basic
import Mathlib.Data.Nat.Prime.Defs
import Mathlib.Tactic.LinearCombination
import Mathlib.Tactic.Ring

/-! # Quotients of decimals

Which quotients have finitely many decimal places, and how many, and the quotient of two decimals as
a correctly rounded operation.

* `splitFactor_spec`: `splitFactor` takes out all factors of one number.
* `places?_spec`: `places?` counts the decimal places of a quotient.
* `div_delivers`: the quotient is rounded once, and an exact one is kept with the exponent closest
  to the difference of the operands' exponents. -/

namespace InfixCalculator

open Decimal Precision

namespace Decimal

/-! ### Factors of two and five -/

theorem splitFactor_spec (depth : ℕ) {p n : ℕ} (hp : 2 ≤ p) (hn : 0 < n) (h : n < p ^ 2 ^ depth) :
    n = p ^ (splitFactor depth p n).1 * (splitFactor depth p n).2 ∧
      ¬ p ∣ (splitFactor depth p n).2 := by
  induction depth generalizing p with
  | zero =>
    rw [pow_zero, pow_one] at h
    exact ⟨by simp [splitFactor], Nat.not_dvd_of_pos_of_lt hn h⟩
  | succ depth ih =>
    have hpp : n < (p * p) ^ 2 ^ depth := by
      rw [← pow_two, ← pow_mul, ← pow_succ']
      exact h
    obtain ⟨hprod, hnot⟩ := ih (p := p * p) (by nlinarith) hpp
    simp only [splitFactor]
    generalize splitFactor depth (p * p) n = sm at hprod hnot
    obtain ⟨squares, m⟩ := sm
    simp only at hprod hnot ⊢
    have hsq : (p * p) ^ squares = p ^ (2 * squares) := by rw [← pow_two, ← pow_mul]
    split_ifs with hm
    · obtain ⟨l, rfl⟩ := Nat.dvd_of_mod_eq_zero hm
      rw [Nat.mul_div_cancel_left l (by omega)]
      refine ⟨by rw [hprod, hsq, pow_succ]; ring, fun hdvd => hnot ?_⟩
      exact Nat.mul_dvd_mul_left p hdvd
    · exact ⟨by rw [hprod, hsq], fun hdvd => hm (Nat.mod_eq_zero_of_dvd hdvd)⟩

theorem coprime_of_not_dvd {p n : ℕ} (hp : p.Prime) (h : ¬ p ∣ n) : Nat.Coprime p n :=
  (Nat.Prime.coprime_iff_not_dvd hp).mpr h

/-- Only twos and fives divide a power of ten, and no more of them than the exponent says. -/
theorem dvd_ten_pow_iff {twos fives others k : ℕ} (h2 : ¬ 2 ∣ 5 ^ fives * others)
    (h5 : ¬ 5 ∣ others) :
    2 ^ twos * (5 ^ fives * others) ∣ 10 ^ k ↔ others = 1 ∧ twos ≤ k ∧ fives ≤ k := by
  have hten : (10 : ℕ) ^ k = 2 ^ k * 5 ^ k := by rw [show 10 = 2 * 5 from rfl, mul_pow]
  have hno2 : ¬ 2 ∣ others := fun h => h2 (h.mul_left _)
  constructor
  · intro h
    have hothers : others = 1 := by
      have hcop : Nat.Coprime (10 ^ k) others := by
        rw [hten]
        exact Nat.Coprime.mul_left ((coprime_of_not_dvd Nat.prime_two hno2).pow_left k)
          ((coprime_of_not_dvd Nat.prime_five h5).pow_left k)
      exact Nat.Coprime.eq_one_of_dvd hcop.symm ((Dvd.intro_left _ rfl).trans
        ((Dvd.intro_left _ rfl).trans h))
    subst hothers
    have hcop25 : ∀ i j : ℕ, Nat.Coprime (2 ^ i) (5 ^ j) := fun i j =>
      Nat.Coprime.pow i j (by decide)
    refine ⟨rfl, ?_, ?_⟩
    · have h2k : 2 ^ twos ∣ 2 ^ k * 5 ^ k := hten ▸ (Dvd.intro _ rfl).trans h
      exact (Nat.pow_dvd_pow_iff_le_right (by decide)).mp ((hcop25 _ _).dvd_of_dvd_mul_right h2k)
    · have h5k : 5 ^ fives ∣ 2 ^ k * 5 ^ k :=
        hten ▸ ((Dvd.intro _ rfl).trans (Dvd.intro_left _ rfl)).trans h
      exact (Nat.pow_dvd_pow_iff_le_right (by decide)).mp
        ((hcop25 _ _).symm.dvd_of_dvd_mul_left h5k)
  · rintro ⟨rfl, h1, h2⟩
    rw [hten, mul_one]
    exact Nat.mul_dvd_mul (pow_dvd_pow 2 h1) (pow_dvd_pow 5 h2)

/-! ### Decimal places -/

/-- **The decimal places of a quotient**: with `some k`, `k` is the least count of them; with
`none`, no count is enough. -/
theorem places?_spec {n d : ℕ} (hn : 0 < n) (hd : 0 < d) (j : ℕ) :
    d ∣ n * 10 ^ j ↔ ∃ k, places? n d = some k ∧ k ≤ j := by
  set g := Nat.gcd n d with hg
  have hg0 : 0 < g := Nat.gcd_pos_of_pos_left d hn
  set reduced := d / g with hred
  have hr0 : 0 < reduced := Nat.div_pos (Nat.le_of_dvd hd (Nat.gcd_dvd_right n d)) hg0
  have hdvd : d ∣ n * 10 ^ j ↔ reduced ∣ 10 ^ j := by
    have hcop : Nat.Coprime reduced (n / g) := (Nat.coprime_div_gcd_div_gcd hg0).symm
    rw [← Nat.mul_dvd_mul_iff_left hg0 (b := reduced),
      show g * reduced = d from Nat.mul_div_cancel' (Nat.gcd_dvd_right n d)]
    constructor
    · intro h
      have hn' : n = g * (n / g) := (Nat.mul_div_cancel' (Nat.gcd_dvd_left n d)).symm
      rw [← Nat.mul_div_cancel' (Nat.gcd_dvd_right n d), ← hg, ← hred] at h ⊢
      rw [hn', mul_assoc] at h
      exact Nat.mul_dvd_mul_left g
        (hcop.dvd_of_dvd_mul_left (Nat.dvd_of_mul_dvd_mul_left hg0 h))
    · intro h
      exact h.trans (Nat.mul_dvd_mul_right (Nat.gcd_dvd_left n d) _)
  have hdepth2 := lt_pow_enoughDepth (by decide : 2 ≤ 2) reduced
  obtain ⟨h2, hodd⟩ := splitFactor_spec (enoughDepth reduced) (p := 2) (by decide) hr0 hdepth2
  set odd := (splitFactor (enoughDepth reduced) 2 reduced).2 with hodddef
  have hodd0 : 0 < odd := Nat.pos_of_ne_zero fun h0 => hodd (h0 ▸ dvd_zero 2)
  have hoddlt : odd < 5 ^ 2 ^ enoughDepth reduced :=
    (Nat.le_of_dvd hr0 (Dvd.intro_left _ h2.symm)).trans_lt
      (lt_pow_enoughDepth (by decide : 2 ≤ 5) reduced)
  obtain ⟨h5, hothers⟩ := splitFactor_spec (enoughDepth reduced) (p := 5) (by decide) hodd0 hoddlt
  rw [hdvd]
  unfold places?
  simp only [← hg, ← hred, ← hodddef]
  conv_lhs => rw [h2, h5]
  rw [dvd_ten_pow_iff (h5 ▸ hodd) hothers]
  split_ifs with h1
  · simp only [h1, true_and, Option.some.injEq, exists_eq_left', max_le_iff]
  · simp [h1]

/-- The decimal places say on which grids a quotient is. -/
theorem onGrid_quotient_iff {n d : ℕ} (hd : 0 < d) (e : ℤ) (j : ℕ) :
    OnGrid (e - j) (Magnitude.toRat 10 ⟨n, d, e⟩) ↔ d ∣ n * 10 ^ j := by
  have hd' : (d : ℚ) ≠ 0 := by exact_mod_cast hd.ne'
  have hscale : ∀ m : ℤ, Magnitude.toRat 10 ⟨n, d, e⟩ = m * 10 ^ (e - j) ↔
      ((n * 10 ^ j : ℕ) : ℤ) = d * m := by
    intro m
    have he := ten_zpow_pos e
    have hj : (0 : ℚ) < 10 ^ j := by positivity
    rw [Magnitude.toRat, zpow_sub₀ ten_ne_zero_rat, zpow_natCast, Nat.cast_ofNat, div_mul_eq_mul_div,
      mul_div_assoc', div_eq_div_iff hd' hj.ne', ← Int.cast_inj (α := ℚ)]
    push_cast
    constructor
    · intro h
      exact mul_right_cancel₀ he.ne' (by linarith)
    · intro h
      linear_combination (10 : ℚ) ^ e * h
  constructor
  · rintro ⟨m, hm⟩
    exact Int.natCast_dvd_natCast.mp ⟨m, (hscale m).mp hm⟩
  · intro h
    obtain ⟨m, hm⟩ := Int.natCast_dvd_natCast.mpr h
    exact ⟨m, (hscale m).mpr hm⟩

end Decimal

/-! ### The quotient -/

variable {p : Precision}

/-- The exact quotient as a signed magnitude. -/
theorem toRat_div_eq (a b : Decimal) :
    a.toRat / b.toRat = signedRat (a.negative != b.negative)
      ⟨a.coefficient, b.coefficient, a.exponent - b.exponent⟩ := by
  rw [toRat_eq_signed a, toRat_eq_signed b, signedRat, Magnitude.toRat]
  simp only [Nat.cast_ofNat, zpow_sub₀ ten_ne_zero_rat]
  cases a.negative <;> cases b.negative <;> simp [neg_div, div_neg, mul_div_mul_comm]

theorem onGrid_signedRat {negative : Bool} {x : Magnitude} {e : ℤ} :
    OnGrid e (signedRat negative x) ↔ OnGrid e (x.toRat 10) := by
  unfold signedRat
  split_ifs
  · exact onGrid_neg
  · rfl

/-- **The quotient** is rounded once, and an exact one is kept where that is possible. -/
theorem div_delivers (p : Precision) {a b : Decimal} (hb : b.isZero = false) :
    p.Delivers (a.toRat / b.toRat) (a.div p b) ∧
      p.Keeps (a.toRat / b.toRat) (a.exponent - b.exponent) (a.div p b) := by
  have hb0 : 0 < b.coefficient := Nat.pos_of_ne_zero fun h => by
    rw [isZero_iff.mpr h] at hb; cases hb
  unfold div
  simp only [hb, Bool.false_eq_true, if_false]
  split_ifs with ha
  · rw [toRat_eq_zero_iff.mpr ha, zero_div]
    exact ⟨zeroWithin_delivers _ _, zeroWithin_keeps _ _⟩
  have ha0 : 0 < a.coefficient := Nat.pos_of_ne_zero fun h => ha (isZero_iff.mpr h)
  rw [toRat_div_eq]
  set e := a.exponent - b.exponent
  set x : Magnitude := ⟨a.coefficient, b.coefficient, e⟩ with hx
  have hplaces := places?_spec ha0 hb0
  have hgrid := fun j => onGrid_quotient_iff (n := a.coefficient) hb0 e j
  -- where the exponent of a decimal equal to the quotient can be
  have hfits : ∀ d : Decimal, d.toRat = signedRat (a.negative != b.negative) x →
      ∃ k, places? a.coefficient b.coefficient = some k ∧ (d.exponent ≤ e - k ∨ k = 0) := by
    intro d hd
    have hdgrid : OnGrid d.exponent (x.toRat 10) :=
      onGrid_signedRat.mp (hd ▸ onGrid_toRat d)
    rcases le_or_gt d.exponent e with h | h
    · have hj : d.exponent = e - ((e - d.exponent).toNat : ℕ) := by omega
      rw [hj] at hdgrid
      obtain ⟨k, hk, hle⟩ := (hplaces _).mp ((hgrid _).mp hdgrid)
      exact ⟨k, hk, Or.inl (by omega)⟩
    · have h0 : OnGrid (e - (0 : ℕ)) (x.toRat 10) := hdgrid.of_le (by omega)
      obtain ⟨k, hk, hle⟩ := (hplaces _).mp ((hgrid _).mp h0)
      exact ⟨k, hk, Or.inr (by omega)⟩
  cases hk : places? a.coefficient b.coefficient with
  | none =>
    have hi : leastExponent p ≤ p.quantum (x.toRat 10) := le_max_right _ _
    refine ⟨fit_delivers (x := x) ha0 hb0 _ (.inl hi), fun d _ hd => ?_⟩
    obtain ⟨k, hk', -⟩ := hfits d hd
    rw [hk] at hk'
    cases hk'
  | some k =>
    have hi : OnGrid (e - k) (x.toRat 10) := (hgrid k).mpr ((hplaces k).mpr ⟨k, hk, le_rfl⟩)
    refine ⟨fit_delivers (x := x) ha0 hb0 _ (.inr hi), fun d hholds hd => ?_⟩
    obtain ⟨r, hr, hr', hrat, hexp, hle⟩ :=
      fit_of_holds (x := x) ha0 hb0 (a.negative != b.negative) (.inr hi) hholds hd
    refine ⟨r, hr, hr', hrat, ?_⟩
    obtain ⟨k', hk', hpos⟩ := hfits d hd
    rw [hk] at hk'
    cases hk'
    omega

end InfixCalculator
