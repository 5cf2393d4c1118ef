import InfixCalculator.Decimal.Arithmetic
import InfixCalculator.Proofs.Decimal.Value

/-! # Correct rounding

What a precision makes of an exact rational number, said without the decimals that carry it, and the
operations of the arithmetic measured against it.

* `Precision.round`: the number rounded once, to the digits of the precision or on the grid of the
  least exponent, whichever is coarser.
* `Precision.Delivers`: an operation delivers an exact result if it gives that number, and overflows
  exactly where the number is out of range.
* `Precision.Keeps`: it keeps an exact result if it gives the result itself, with the exponent
  closest to the ideal one, whenever any decimal within the precision is equal to it.
* `fit_delivers`, `fit_keeps`: so does `fit`, as long as the ideal exponent makes nothing coarser;
  `add_delivers` and its like: so do sum, difference and product. -/

namespace InfixCalculator

open Decimal

namespace Precision

variable (p : Precision)

/-! ### Rounding a number -/

/-- The exponent of the grid on which a number is rounded. -/
def quantum (x : ℚ) : ℤ := max (Int.log 10 |x| - (p.digits - 1)) (leastExponent p)

/-- The number rounded once, half to even. -/
def round (x : ℚ) : ℚ := roundHalfEven (x / 10 ^ p.quantum x) * 10 ^ p.quantum x

/-- The decimal has no more digits than the precision, and both its ends are in range. -/
def Holds (d : Decimal) : Prop :=
  d.coefficient < 10 ^ p.digits ∧ leastExponent p ≤ d.exponent ∧ d.adjusted ≤ greatestExponent

/-- **The outcome of an operation** with an exact result: the result rounded once, unless that
reaches `10 ^ (greatestExponent + 1)`. -/
structure Delivers (exact : ℚ) (o : Except Signal Decimal) : Prop where
  of_ok : ∀ r, o = .ok r →
    r.toRat = p.round exact ∧ |p.round exact| < 10 ^ (greatestExponent + 1)
  of_error : ∀ s, o = .error s →
    s = .overflow ∧ 10 ^ (greatestExponent + 1) ≤ |p.round exact|

/-- **An exact result is kept** if the precision holds it with any exponent; of these exponents the
one closest to the ideal one is taken. -/
def Keeps (exact : ℚ) (ideal : ℤ) (o : Except Signal Decimal) : Prop :=
  ∀ d, p.Holds d → d.toRat = exact → ∃ r, o = .ok r ∧ p.Holds r ∧ r.toRat = exact ∧
    (r.exponent - ideal).natAbs ≤ (d.exponent - ideal).natAbs

variable {p}

theorem quantum_neg (x : ℚ) : p.quantum (-x) = p.quantum x := by
  rw [quantum, abs_neg, quantum]

theorem round_neg (x : ℚ) : p.round (-x) = -p.round x := by
  rw [round, quantum_neg, neg_div, roundHalfEven_neg, round]
  push_cast
  ring

theorem round_zero : p.round 0 = 0 := by
  have h := roundHalfEven_intCast 0
  rw [Int.cast_zero] at h
  rw [round, zero_div, h, Int.cast_zero, zero_mul]

theorem round_of_onGrid {x : ℚ} (h : OnGrid (p.quantum x) x) : p.round x = x :=
  h.roundHalfEven_mul

theorem leastExponent_lt : leastExponent p < greatestExponent := by
  have := p.digits_pos
  unfold leastExponent greatestExponent
  omega

/-- A decimal that the precision holds is on the grid on which its number is rounded. -/
theorem quantum_le_exponent {d : Decimal} (hd : p.Holds d) (h0 : 0 < d.coefficient) :
    p.quantum d.toRat ≤ d.exponent := by
  obtain ⟨hdigits, hleast, -⟩ := hd
  have hcount := (digitCount_le_iff (by decide : 2 ≤ 10)).mpr hdigits
  have hpos := p.digits_pos
  rw [quantum, log_abs_toRat h0, adjusted]
  omega

theorem round_of_holds {d : Decimal} (hd : p.Holds d) : p.round d.toRat = d.toRat := by
  rcases Nat.eq_zero_or_pos d.coefficient with h0 | h0
  · rw [toRat_eq_zero_iff.mpr (isZero_iff.mpr h0), round_zero]
  · exact round_of_onGrid ((onGrid_toRat d).of_le (quantum_le_exponent hd h0))

theorem abs_lt_of_holds {d : Decimal} (hd : p.Holds d) :
    |d.toRat| < 10 ^ (greatestExponent + 1) := by
  obtain ⟨-, -, hadj⟩ := hd
  rcases Nat.eq_zero_or_pos d.coefficient with h0 | h0
  · rw [toRat_eq_zero_iff.mpr (isZero_iff.mpr h0), abs_zero]
    exact ten_zpow_pos _
  · rw [← not_le, le_abs_toRat_iff h0]
    omega

end Precision

open Precision

variable {p : Precision}

/-! ### Zeros -/

theorem toRat_zeroWithin (negative : Bool) (e : ℤ) : (zeroWithin p negative e).toRat = 0 :=
  toRat_eq_zero_iff.mpr rfl

theorem zeroWithin_delivers (negative : Bool) (e : ℤ) :
    p.Delivers 0 (.ok (zeroWithin p negative e)) := by
  refine ⟨fun r hr => ?_, nofun⟩
  cases hr
  rw [toRat_zeroWithin, round_zero, abs_zero]
  exact ⟨rfl, ten_zpow_pos _⟩

theorem zeroWithin_keeps (negative : Bool) (e : ℤ) :
    p.Keeps 0 e (.ok (zeroWithin p negative e)) := by
  rintro d ⟨-, hleast, hadj⟩ hd
  have hlt := leastExponent_lt (p := p)
  have hc : d.coefficient = 0 := isZero_iff.mp (toRat_eq_zero_iff.mp hd)
  have hzero : d.adjusted = d.exponent := by
    rw [adjusted, hc, digitCount_zero (by decide)]
    omega
  refine ⟨_, rfl, ⟨Nat.pow_pos (by decide), le_max_left _ _, ?_⟩, toRat_zeroWithin _ _, ?_⟩
  · rw [adjusted, zeroWithin, digitCount_zero (by decide)]
    simp only
    omega
  · rw [zeroWithin]
    simp only
    omega

/-! ### Rounding a magnitude into the range -/

/-- The number of a signed magnitude. -/
def signedRat (negative : Bool) (x : Magnitude) : ℚ :=
  if negative then -x.toRat 10 else x.toRat 10

theorem abs_signedRat (negative : Bool) {x : Magnitude} (hx : 0 < x.toRat 10) :
    |signedRat negative x| = x.toRat 10 := by
  unfold signedRat
  split_ifs
  · rw [abs_neg, abs_of_pos hx]
  · exact abs_of_pos hx

theorem quantum_signedRat (negative : Bool) (x : Magnitude) :
    p.quantum (signedRat negative x) = p.quantum (x.toRat 10) := by
  unfold signedRat
  split_ifs
  · exact quantum_neg _
  · rfl

theorem round_signedRat (negative : Bool) (x : Magnitude) :
    p.round (signedRat negative x) =
      if negative then -p.round (x.toRat 10) else p.round (x.toRat 10) := by
  unfold signedRat
  split_ifs
  · exact round_neg _
  · rfl

/-- What `fit` makes of a magnitude, unless it overflows. -/
def fitted (p : Precision) (negative : Bool) (x : Magnitude) (ideal : ℤ) : Decimal :=
  ⟨negative, (x.rounded 10 p.digits (max (leastExponent p) ideal)).1,
    (x.rounded 10 p.digits (max (leastExponent p) ideal)).2⟩

@[simp] theorem negative_fitted (negative : Bool) (x : Magnitude) (ideal : ℤ) :
    (fitted p negative x ideal).negative = negative := by rw [fitted]

theorem coefficient_fitted (negative : Bool) (x : Magnitude) (ideal : ℤ) :
    (fitted p negative x ideal).coefficient =
      (x.rounded 10 p.digits (max (leastExponent p) ideal)).1 := by rw [fitted]

theorem exponent_fitted (negative : Bool) (x : Magnitude) (ideal : ℤ) :
    (fitted p negative x ideal).exponent =
      (x.rounded 10 p.digits (max (leastExponent p) ideal)).2 := by rw [fitted]

theorem fit_eq (negative : Bool) (x : Magnitude) (ideal : ℤ) :
    fit p negative x ideal = if 10 ^ (greatestExponent + 1) ≤ |(fitted p negative x ideal).toRat|
      then .error .overflow else .ok (fitted p negative x ideal) := by
  unfold fit fitted
  generalize x.rounded 10 p.digits (max (leastExponent p) ideal) = ce
  obtain ⟨c, e⟩ := ce
  simp only
  refine if_congr ?_ rfl rfl
  rcases Nat.eq_zero_or_pos c with rfl | hc
  · rw [toRat_eq_zero_iff.mpr rfl, abs_zero]
    simpa using ten_zpow_pos _
  · have hcount := digitCount_pos (by decide : 2 ≤ 10) hc
    rw [le_abs_toRat_iff hc, adjusted]
    simp only
    omega

section Fit
variable {x : Magnitude} (hn : 0 < x.numerator) (hd : 0 < x.denominator) {ideal : ℤ}
include hn hd

/-- `fitted` rounds on the grid of the precision or of the ideal exponent. A carry to a further
digit moves to the next exponent. -/
theorem fitted_cases (negative : Bool) {q n : ℤ} (hq : q = max (p.quantum (x.toRat 10)) ideal)
    (hround : n = roundHalfEven (x.toRat 10 / 10 ^ q)) :
    (((fitted p negative x ideal).coefficient : ℤ) = n ∧
        (fitted p negative x ideal).exponent = q ∧ n < 10 ^ p.digits) ∨
      ((fitted p negative x ideal).coefficient = 10 ^ (p.digits - 1) ∧
        (fitted p negative x ideal).exponent = q + 1 ∧ n = 10 ^ p.digits) := by
  have hq' : q = max (Int.log 10 (x.toRat 10) - (p.digits - 1)) (max (leastExponent p) ideal) := by
    rw [hq, quantum, abs_of_pos (x.toRat_pos (by decide) hn hd), max_assoc]
  have h := x.rounded_eq (by decide : 2 ≤ 10) hn hd p.digits_pos (max (leastExponent p) ideal)
    (n := n) hq' (by rw [hround, Nat.cast_ofNat])
  rw [Nat.cast_ofNat] at h
  rwa [coefficient_fitted, exponent_fitted]

/-- **The fitted decimal** is the number rounded once. The ideal exponent may make the grid coarser
only if the exact result is on that grid. -/
theorem toRat_fitted (negative : Bool)
    (hi : ideal ≤ p.quantum (x.toRat 10) ∨ OnGrid ideal (x.toRat 10)) :
    (fitted p negative x ideal).toRat = p.round (signedRat negative x) := by
  have hround : (roundHalfEven (x.toRat 10 / 10 ^ max (p.quantum (x.toRat 10)) ideal) : ℚ) *
      10 ^ max (p.quantum (x.toRat 10)) ideal = p.round (x.toRat 10) := by
    rcases le_or_gt ideal (p.quantum (x.toRat 10)) with h | h
    · rw [max_eq_left h]; rfl
    · have hgrid := hi.resolve_left (not_le.mpr h)
      rw [max_eq_right h.le, hgrid.roundHalfEven_mul, round_of_onGrid (hgrid.of_le h.le)]
  have hval : ((fitted p negative x ideal).coefficient : ℚ) *
      10 ^ (fitted p negative x ideal).exponent = p.round (x.toRat 10) := by
    rcases fitted_cases (p := p) hn hd negative rfl rfl with ⟨h1, h2, -⟩ | ⟨h1, h2, h3⟩
    · rw [h2, ← hround, ← h1]; rfl
    · rw [h1, h2, ← hround, h3, zpow_add₀ ten_ne_zero_rat]
      obtain ⟨n, hn⟩ := Nat.exists_eq_succ_of_ne_zero p.digits_pos.ne'
      rw [hn, Nat.succ_eq_add_one, Nat.add_sub_cancel]
      push_cast
      ring
  rw [round_signedRat, ← hval, toRat_eq_signed, negative_fitted]

theorem fit_delivers (negative : Bool)
    (hi : ideal ≤ p.quantum (x.toRat 10) ∨ OnGrid ideal (x.toRat 10)) :
    p.Delivers (signedRat negative x) (fit p negative x ideal) := by
  have hround := toRat_fitted (p := p) hn hd negative hi
  rw [fit_eq]
  split_ifs with h
  · refine ⟨nofun, fun s hs => ?_⟩
    cases hs
    exact ⟨rfl, hround ▸ h⟩
  · refine ⟨fun r hr => ?_, nofun⟩
    cases hr
    exact ⟨hround, hround ▸ not_le.mp h⟩

/-- A number that the precision holds is rounded without a carry. -/
theorem fitted_of_onGrid (negative : Bool)
    (hgrid : OnGrid (max (p.quantum (x.toRat 10)) ideal) (x.toRat 10)) :
    (fitted p negative x ideal).coefficient < 10 ^ p.digits ∧
      (fitted p negative x ideal).exponent = max (p.quantum (x.toRat 10)) ideal := by
  have hx := x.toRat_pos (by decide : 2 ≤ 10) hn hd
  rcases fitted_cases (p := p) hn hd negative rfl rfl with ⟨h1, h2, h3⟩ | ⟨-, -, h3⟩
  · exact ⟨by exact_mod_cast h1 ▸ h3, h2⟩
  · -- a carry would need as many units of the grid as the next power of ten has
    exfalso
    have hval := hgrid.roundHalfEven_mul
    rw [h3, Int.cast_pow, Int.cast_ofNat, ← zpow_natCast, ← zpow_add₀ ten_ne_zero_rat] at hval
    have hlog := Int.lt_zpow_succ_log_self (b := 10) (by decide) (x.toRat 10)
    have hquantum : Int.log 10 (x.toRat 10) - (p.digits - 1) ≤ p.quantum (x.toRat 10) := by
      rw [quantum, abs_of_pos hx]
      exact le_max_left _ _
    have hle : Int.log 10 (x.toRat 10) + 1 ≤ p.digits + max (p.quantum (x.toRat 10)) ideal := by
      omega
    have := zpow_le_zpow_right₀ (by norm_num : (1 : ℚ) ≤ 10) hle
    rw [Nat.cast_ofNat] at hlog
    rw [hval] at this
    exact absurd hlog (not_lt.mpr this)

/-- **An exact result is given** on the grid of `fit`. -/
theorem fit_of_holds (negative : Bool)
    (hi : ideal ≤ p.quantum (x.toRat 10) ∨ OnGrid ideal (x.toRat 10)) {d : Decimal}
    (hholds : p.Holds d) (heq : d.toRat = signedRat negative x) :
    ∃ r, fit p negative x ideal = .ok r ∧ p.Holds r ∧ r.toRat = signedRat negative x ∧
      r.exponent = max (p.quantum (x.toRat 10)) ideal ∧ p.quantum (x.toRat 10) ≤ d.exponent := by
  have hx := x.toRat_pos (by decide : 2 ≤ 10) hn hd
  have habs : |d.toRat| = x.toRat 10 := by rw [heq, abs_signedRat negative hx]
  have hpos : ∀ r : Decimal, |r.toRat| = x.toRat 10 → 0 < r.coefficient := fun r hr => by
    rcases Nat.eq_zero_or_pos r.coefficient with h0 | h0
    · rw [toRat_eq_zero_iff.mpr (isZero_iff.mpr h0), abs_zero] at hr
      exact absurd hr hx.ne
    · exact h0
  have hle : p.quantum (x.toRat 10) ≤ d.exponent := by
    have := quantum_le_exponent hholds (hpos d habs)
    rwa [heq, quantum_signedRat] at this
  have hgrid : OnGrid (max (p.quantum (x.toRat 10)) ideal) (x.toRat 10) := by
    rcases le_or_gt ideal (p.quantum (x.toRat 10)) with h | h
    · rw [max_eq_left h]
      exact OnGrid.of_le ⟨d.coefficient, by rw [← habs, abs_toRat]; rfl⟩ hle
    · rw [max_eq_right h.le]
      exact hi.resolve_left (not_le.mpr h)
  obtain ⟨hdigits, hexp⟩ := fitted_of_onGrid (p := p) hn hd negative hgrid
  have hrat : (fitted p negative x ideal).toRat = signedRat negative x := by
    rw [toRat_fitted hn hd negative hi, ← heq, round_of_holds hholds]
  have hlt : ¬ 10 ^ (greatestExponent + 1) ≤ |(fitted p negative x ideal).toRat| := by
    rw [hrat, ← heq]
    exact not_le.mpr (abs_lt_of_holds hholds)
  refine ⟨_, by rw [fit_eq, if_neg hlt], ⟨hdigits, ?_, ?_⟩, hrat, hexp, hle⟩
  · rw [hexp]
    exact (le_max_right _ _).trans (le_max_left _ _)
  · rw [le_abs_toRat_iff (hpos _ (by rw [hrat, abs_signedRat negative hx]))] at hlt
    omega

theorem fit_keeps (negative : Bool)
    (hi : ideal ≤ p.quantum (x.toRat 10) ∨ OnGrid ideal (x.toRat 10)) :
    p.Keeps (signedRat negative x) ideal (fit p negative x ideal) := by
  intro d hholds heq
  obtain ⟨r, hr, hr', hrat, hexp, hle⟩ := fit_of_holds hn hd negative hi hholds heq
  exact ⟨r, hr, hr', hrat, by omega⟩

end Fit

/-! ### Sums, differences and products -/

theorem cast_scaledTo {d : Decimal} {e : ℤ} (h : e ≤ d.exponent) :
    (d.scaledTo e : ℚ) * 10 ^ e = d.toRat := by
  unfold scaledTo toRat
  push_cast
  rw [mul_assoc, ← zpow_natCast, ← zpow_add₀ ten_ne_zero_rat]
  congr 2
  omega

/-- The exact sum on the grid of the lesser exponent. -/
theorem toRat_add_eq (a b : Decimal) {e : ℤ} (he : e = min a.exponent b.exponent) :
    a.toRat + b.toRat = ((a.scaledTo e + b.scaledTo e : ℤ) : ℚ) * 10 ^ e := by
  rw [← cast_scaledTo (d := a) (e := e) (by omega), ← cast_scaledTo (d := b) (e := e) (by omega)]
  push_cast
  ring

theorem signedRat_int (n : ℤ) (e : ℤ) :
    signedRat (n < 0) ⟨n.natAbs, 1, e⟩ = n * 10 ^ e := by
  unfold signedRat Magnitude.toRat
  rcases lt_or_ge n 0 with h | h
  · have : (n.natAbs : ℚ) = -n := by
      rw [← Int.cast_natCast, Int.natCast_natAbs, abs_of_neg h, Int.cast_neg]
    simp [h, this]
  · have : (n.natAbs : ℚ) = n := by
      rw [← Int.cast_natCast, Int.natCast_natAbs, abs_of_nonneg h]
    simp [not_lt.mpr h, this]

/-- An integral coefficient makes a result on the grid of its exponent. -/
theorem fit_integral (p : Precision) (negative : Bool) {c : ℕ} (hc : 0 < c) (e : ℤ) :
    p.Delivers (signedRat negative ⟨c, 1, e⟩) (fit p negative ⟨c, 1, e⟩ e) ∧
      p.Keeps (signedRat negative ⟨c, 1, e⟩) e (fit p negative ⟨c, 1, e⟩ e) := by
  have hgrid : OnGrid e (Magnitude.toRat 10 ⟨c, 1, e⟩) := ⟨c, by simp [Magnitude.toRat]⟩
  exact ⟨fit_delivers (x := ⟨c, 1, e⟩) hc Nat.one_pos negative (.inr hgrid),
    fit_keeps (x := ⟨c, 1, e⟩) hc Nat.one_pos negative (.inr hgrid)⟩

/-- **The sum** is rounded once, and kept where that is possible. -/
theorem add_delivers (p : Precision) (a b : Decimal) :
    p.Delivers (a.toRat + b.toRat) (a.add p b) ∧
      p.Keeps (a.toRat + b.toRat) (min a.exponent b.exponent) (a.add p b) := by
  rw [toRat_add_eq a b rfl]
  unfold add
  simp only
  split_ifs with h
  · rw [h, Int.cast_zero, zero_mul]
    exact ⟨zeroWithin_delivers _ _, zeroWithin_keeps _ _⟩
  · rw [← signedRat_int]
    exact fit_integral p _ (Int.natAbs_pos.mpr h) _

/-- **The difference** is rounded once, and kept where that is possible. -/
theorem sub_delivers (p : Precision) (a b : Decimal) :
    p.Delivers (a.toRat - b.toRat) (a.sub p b) ∧
      p.Keeps (a.toRat - b.toRat) (min a.exponent b.exponent) (a.sub p b) := by
  have h := add_delivers p a b.neg
  rwa [toRat_neg, ← sub_eq_add_neg] at h

/-- The exact product as a signed magnitude. -/
theorem toRat_mul_eq (a b : Decimal) :
    a.toRat * b.toRat = signedRat (a.negative != b.negative)
      ⟨a.coefficient * b.coefficient, 1, a.exponent + b.exponent⟩ := by
  rw [toRat_eq_signed a, toRat_eq_signed b, signedRat, Magnitude.toRat]
  simp only [Nat.cast_mul, Nat.cast_one, div_one, Nat.cast_ofNat, zpow_add₀ ten_ne_zero_rat]
  cases a.negative <;> cases b.negative <;> simp <;> ring

/-- **The product** is rounded once, and kept where that is possible. -/
theorem mul_delivers (p : Precision) (a b : Decimal) :
    p.Delivers (a.toRat * b.toRat) (a.mul p b) ∧
      p.Keeps (a.toRat * b.toRat) (a.exponent + b.exponent) (a.mul p b) := by
  unfold mul
  simp only
  split_ifs with h
  · have h0 : a.toRat * b.toRat = 0 := by
      rcases Bool.or_eq_true_iff.mp h with h | h
      · rw [toRat_eq_zero_iff.mpr h, zero_mul]
      · rw [toRat_eq_zero_iff.mpr h, mul_zero]
    rw [h0]
    exact ⟨zeroWithin_delivers _ _, zeroWithin_keeps _ _⟩
  · rw [Bool.or_eq_true_iff, isZero_iff, isZero_iff, not_or] at h
    have hn : 0 < a.coefficient * b.coefficient :=
      Nat.mul_pos (Nat.pos_of_ne_zero h.1) (Nat.pos_of_ne_zero h.2)
    rw [toRat_mul_eq]
    exact fit_integral p _ hn _

end InfixCalculator
