import InfixCalculator.Power
import InfixCalculator.Proofs.Decimal.Value

/-! # Doubles that are equal as numbers

Decimals of the same number go to doubles that differ at most in the sign of a zero, and doubles that
differ in nothing else go back to decimals of the same number.

* `Magnitude.rounded_congr`: rounding depends on the number alone.
* `Double.Alike`, `Double.ofDecimal_alike`: the doubles of two decimals of the same number.
* `Double.toDecimal?_alike`: the decimals of alike doubles.
* `Double.Functions.RespectAlike`: what is asked of the functions on doubles. -/

namespace InfixCalculator

theorem Magnitude.rounded_congr {base : ℕ} (hb : 2 ≤ base) {x y : Magnitude}
    (hxn : 0 < x.numerator) (hxd : 0 < x.denominator) (hyn : 0 < y.numerator)
    (hyd : 0 < y.denominator) {digits : ℕ} (hdigits : 0 < digits) (least : ℤ)
    (h : x.toRat base = y.toRat base) :
    x.rounded base digits least = y.rounded base digits least := by
  have hx := x.rounded_eq hb hxn hxd hdigits least rfl rfl
  have hy := y.rounded_eq hb hyn hyd hdigits least rfl rfl
  rw [← h] at hy
  rcases hx with ⟨h1, h2, h3⟩ | ⟨h1, h2, h3⟩ <;> rcases hy with ⟨h4, h5, h6⟩ | ⟨h4, h5, h6⟩
  · exact Prod.ext (by exact_mod_cast h1.trans h4.symm) (h2.trans h5.symm)
  · exact absurd h6 h3.ne
  · exact absurd h3 h6.ne
  · exact Prod.ext (h1.trans h4.symm) (h2.trans h5.symm)

namespace Double

/-! ### From decimals -/

/-- The doubles are equal as numbers: they are the same, or zeros. -/
def Alike (x y : Double) : Prop := x = y ∨ (x.isZero = true ∧ y.isZero = true)

theorem alike_zero (s s' : Bool) : (zero s).Alike (zero s') := .inr ⟨rfl, rfl⟩

/-- The fraction that is rounded to a double. -/
theorem toRat_fraction (d : Decimal) :
    Magnitude.toRat 2 ⟨d.coefficient * 10 ^ d.exponent.toNat, 10 ^ (-d.exponent).toNat, 0⟩ =
      |d.toRat| := by
  rw [Decimal.abs_toRat, Magnitude.toRat]
  push_cast
  rw [mul_one, mul_div_assoc, ← zpow_natCast, ← zpow_natCast,
    ← zpow_sub₀ ten_ne_zero_rat]
  congr 2
  omega

/-- **Decimals of the same number have alike doubles.** -/
theorem ofDecimal_alike {a b : Decimal} (h : a.toRat = b.toRat) :
    (ofDecimal a).Alike (ofDecimal b) := by
  by_cases ha : a.isZero = true
  · have hb : b.isZero = true := by
      rwa [← Decimal.toRat_eq_zero_iff, ← h, Decimal.toRat_eq_zero_iff]
    unfold ofDecimal
    rw [ha, hb, Bool.true_or, Bool.true_or, if_pos rfl, if_pos rfl]
    exact alike_zero _ _
  · have hb : ¬ b.isZero = true := by
      rwa [← Decimal.toRat_eq_zero_iff, ← h, Decimal.toRat_eq_zero_iff]
    have ha0 : 0 < a.coefficient := Nat.pos_of_ne_zero fun h0 => ha (Decimal.isZero_iff.mpr h0)
    have hb0 : 0 < b.coefficient := Nat.pos_of_ne_zero fun h0 => hb (Decimal.isZero_iff.mpr h0)
    have hsign : a.negative = b.negative :=
      Decimal.negative_eq_of_toRat_eq h (Bool.not_eq_true _ ▸ ha)
    have hadj : a.adjusted = b.adjusted := by
      rw [← Decimal.log_abs_toRat ha0, ← Decimal.log_abs_toRat hb0, h]
    have hround := Magnitude.rounded_congr (le_refl 2)
      (x := ⟨a.coefficient * 10 ^ a.exponent.toNat, 10 ^ (-a.exponent).toNat, 0⟩)
      (y := ⟨b.coefficient * 10 ^ b.exponent.toNat, 10 ^ (-b.exponent).toNat, 0⟩)
      (Nat.mul_pos ha0 (Nat.pow_pos (by decide))) (Nat.pow_pos (by decide))
      (Nat.mul_pos hb0 (Nat.pow_pos (by decide))) (Nat.pow_pos (by decide))
      (by decide : 0 < mantissaDigits) leastExponent
      (by rw [toRat_fraction, toRat_fraction, h])
    left
    unfold ofDecimal
    rw [Bool.not_eq_true] at ha hb
    rw [ha, hb, hadj, hsign]
    simp only [hround]

/-! ### To decimals -/

theorem toDecimal?_of_isZero {x : Double} (h : x.isZero = true) :
    ∃ v, x.toDecimal? = some v ∧ v.toRat = 0 := by
  cases x with
  | finite negative mantissa exponent =>
    have h0 : mantissa = 0 := by simpa [isZero] using h
    exact ⟨⟨negative, 0, 0⟩, by rw [toDecimal?, if_pos h0], Decimal.toRat_eq_zero_iff.mpr rfl⟩
  | infinite negative => cases h
  | nan => cases h

theorem toDecimal?_alike {x y : Double} (h : x.Alike y) :
    (x.toDecimal? = none ∧ y.toDecimal? = none) ∨
      ∃ v w, x.toDecimal? = some v ∧ y.toDecimal? = some w ∧ v.toRat = w.toRat := by
  rcases h with rfl | ⟨hx, hy⟩
  · cases hx : x.toDecimal? with
    | none => exact .inl ⟨rfl, rfl⟩
    | some v => exact .inr ⟨v, v, rfl, rfl, rfl⟩
  · obtain ⟨v, hv, hv0⟩ := toDecimal?_of_isZero hx
    obtain ⟨w, hw, hw0⟩ := toDecimal?_of_isZero hy
    exact .inr ⟨v, w, hv, hw, hv0.trans hw0.symm⟩

/-! ### Functions -/

/-- Two answers of a function that are equal as numbers, or the same refusal. -/
inductive AlikeAnswers : Except Refusal Double → Except Refusal Double → Prop
  | ok {x y : Double} (h : x.Alike y) : AlikeAnswers (.ok x) (.ok y)
  | error (r : Refusal) : AlikeAnswers (.error r) (.error r)

/-- The sign of a zero among the operands makes no difference to the number that is answered, and
none to the refusal. -/
structure Functions.RespectAlike (f : Functions) : Prop where
  power : ∀ {x x' y y'}, x.Alike x' → y.Alike y' → AlikeAnswers (f.power x y) (f.power x' y')
  squareRoot : ∀ {x x'}, x.Alike x' → AlikeAnswers (f.squareRoot x) (f.squareRoot x')

end Double

end InfixCalculator
