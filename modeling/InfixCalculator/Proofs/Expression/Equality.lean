import InfixCalculator.Proofs.Double.Alike
import InfixCalculator.Proofs.Expression.Parsing
import InfixCalculator.Proofs.Expression.Simulation

/-! # Operations respect numbers

Operands that are equal as numbers give results that are equal as numbers, or errors of the same
kind, although they may differ in their exponents and in the signs of zeros.

* `Link.numeric`: the link between readings whose values are equal as numbers.
* `Link.addOrSub_numeric` and its like: the operations of the grammar keep this link.
* `Link.number_numeric`: so do number literals that are the same. -/

namespace InfixCalculator

open Decimal Calculator

namespace Link

/-- **Numeric equality**: values with the same number, and faults of the same kind. -/
def numeric (cursors : Cursor → Cursor → Prop) (excused : Fault → Prop) : Link where
  values v w := v.toRat = w.toRat
  faults f g := f.kind = g.kind
  cursors := cursors
  excused := excused

variable {R : Cursor → Cursor → Prop} {E : Fault → Prop} {k : Calculator}
variable {v v' w w' : Decimal}

/-! ### Rounded operations -/

/-- Two operations with the same exact result have results that are equal as numbers. -/
theorem arithmetic_numeric {exact : ℚ} {m m' : Except Signal Decimal}
    (h : k.precision.Delivers exact m) (h' : k.precision.Delivers exact m') :
    (numeric R E).Results (arithmeticResult m) (arithmeticResult m') := by
  cases m with
  | ok r =>
    obtain ⟨hr, hlt⟩ := h.of_ok r rfl
    cases m' with
    | ok r' => exact .ok (hr.trans (h'.of_ok r' rfl).1.symm)
    | error s => exact absurd hlt (not_lt.mpr (h'.of_error s rfl).2)
  | error s =>
    obtain ⟨-, hle⟩ := h.of_error s rfl
    cases m' with
    | ok r' => exact absurd (h'.of_ok r' rfl).2 (not_lt.mpr hle)
    | error s' => exact .error rfl

theorem addOrSub_numeric (op : Char) (hv : v.toRat = v'.toRat) (hw : w.toRat = w'.toRat) :
    (numeric R E).Results (k.addOrSub op v w) (k.addOrSub op v' w') := by
  unfold addOrSub
  split_ifs
  · have h' := (add_delivers k.precision v' w').1
    rw [← hv, ← hw] at h'
    exact arithmetic_numeric (add_delivers k.precision v w).1 h'
  · have h' := (sub_delivers k.precision v' w').1
    rw [← hv, ← hw] at h'
    exact arithmetic_numeric (sub_delivers k.precision v w).1 h'

theorem isZero_congr (h : v.toRat = w.toRat) : v.isZero = w.isZero :=
  Bool.eq_iff_iff.mpr (by rw [← toRat_eq_zero_iff, h, toRat_eq_zero_iff])

theorem mulOrDiv_numeric (op : Char) (c c' : Cursor) (hv : v.toRat = v'.toRat)
    (hw : w.toRat = w'.toRat) :
    (numeric R E).Results (k.mulOrDiv op c v w) (k.mulOrDiv op c' v' w') := by
  unfold mulOrDiv
  rw [← isZero_congr hw]
  split_ifs with hop hzero
  · have h' := (mul_delivers k.precision v' w').1
    rw [← hv, ← hw] at h'
    exact arithmetic_numeric (mul_delivers k.precision v w).1 h'
  · exact .error rfl
  · rw [Bool.not_eq_true] at hzero
    have h' := (div_delivers k.precision (a := v') (isZero_congr hw ▸ hzero)).1
    rw [← hv, ← hw] at h'
    exact arithmetic_numeric (div_delivers k.precision hzero).1 h'

theorem signed_numeric (sign : Char) (h : v.toRat = w.toRat) :
    (signed sign v).toRat = (signed sign w).toRat := by
  unfold signed
  split_ifs
  · rw [toRat_neg, toRat_neg, h]
  · exact h

/-! ### Powers and roots -/

/-- Alike answers go back to decimals of the same number, or are both too large. -/
theorem answer_numeric {x y : Double} (h : x.Alike y) {e e' : PowerError} (he : e.kind = e'.kind) :
    (numeric R E).Results
      (powerResult (match x.toDecimal? with | some d => .ok d | none => .error e))
      (powerResult (match y.toDecimal? with | some d => .ok d | none => .error e')) := by
  rcases Double.toDecimal?_alike h with ⟨h1, h2⟩ | ⟨a, b, h1, h2, hab⟩
  · rw [h1, h2]
    exact .error he
  · rw [h1, h2]
    exact .ok hab

theorem power_numeric (hf : k.functions.RespectAlike) (hv : v.toRat = v'.toRat)
    (hw : w.toRat = w'.toRat) :
    (numeric R E).Results (powerResult (v.power k.functions w))
      (powerResult (v'.power k.functions w')) := by
  have h := hf.power (Double.ofDecimal_alike hv) (Double.ofDecimal_alike hw)
  unfold Decimal.power
  generalize k.functions.power (Double.ofDecimal v) (Double.ofDecimal w) = answer at h ⊢
  generalize k.functions.power (Double.ofDecimal v') (Double.ofDecimal w') = answer' at h ⊢
  cases h with
  | error r => cases r <;> exact .error rfl
  | ok halike => exact answer_numeric halike rfl

theorem squareRoot_numeric (hf : k.functions.RespectAlike) (hv : v.toRat = v'.toRat) :
    (numeric R E).Results (powerResult (v.squareRoot k.functions))
      (powerResult (v'.squareRoot k.functions)) := by
  have h := hf.squareRoot (Double.ofDecimal_alike hv)
  have hsign : v.isBelowZero = v'.isBelowZero :=
    Bool.eq_iff_iff.mpr (by rw [← toRat_neg_iff, hv, toRat_neg_iff])
  unfold Decimal.squareRoot
  rw [← hsign]
  split_ifs
  · exact .error rfl
  · generalize k.functions.squareRoot (Double.ofDecimal v) = answer at h ⊢
    generalize k.functions.squareRoot (Double.ofDecimal v') = answer' at h ⊢
    cases h with
    | error r => exact .error rfl
    | ok halike => exact answer_numeric halike rfl

/-! ### Numbers -/

variable {c c' : Cursor}

/-- The same literal has the same value. -/
theorem number_numeric (hliteral : c'.literal = c.literal) (hhead : c'.rest.head? = c.rest.head?)
    (hafter : R (c.advance c.literal.length) (c'.advance c.literal.length)) :
    c.number.Linked (numeric R E) c'.number := by
  have hproblem : c.noLiteral.kind = c'.noLiteral.kind := by
    unfold Cursor.noLiteral Cursor.peek
    rw [hhead]
    cases c.rest.head? with
    | none => rfl
    | some x =>
      dsimp only
      split_ifs <;> rfl
  unfold Cursor.number
  simp only [hliteral]
  split_ifs
  · exact .fault hproblem _ _
  · exact .fault rfl _ _
  · exact .fault rfl _ _
  · cases Decimal.ofPlain? c.literal with
    | none => exact .fault rfl _ _
    | some v => exact .value rfl hafter

end Link

end InfixCalculator
