import InfixCalculator.Proofs.Expression.Meaning

/-! # Exact arithmetic in expressions

* `RoundsOnce`: a step of a sum or product, measured against the exact result;
  `roundsOnce_add` and its like: the steps of the folds are of this kind.
* `Tree.rational`: the rational number that an expression of `+ - * /` stands for;
  `Tree.Representable`: the precision holds the result of each of its operations.
* `Tree.exists_value`: then the value of the expression is exact.
* `Calculator.arithmetic_rounds_once`: the operations are correctly rounded, and therefore exact
  wherever they can be. -/

namespace InfixCalculator

open Decimal

/-! ### One step -/

/-- **A step of a fold** with an exact result: the result is rounded once, and one that reaches
`10 ^ 1000000` is an overflow. A result that the precision holds is kept, at the ideal exponent if
the precision holds it there, else at the closest exponent that there is. -/
structure RoundsOnce (p : Precision) (exact : ℚ) (ideal : ℤ) (step : Except Fault Decimal) :
    Prop where
  rounded : |p.round exact| < 10 ^ (1000000 : ℤ) → ∃ r, step = .ok r ∧ r.toRat = p.round exact
  overflow : 10 ^ (1000000 : ℤ) ≤ |p.round exact| → step = .error (.signal .overflow)
  kept : ∀ d, p.Holds d → d.toRat = exact → d.exponent = ideal →
    ∃ r, step = .ok r ∧ r.coefficient = d.coefficient ∧ r.exponent = d.exponent
  closest : ∀ d, p.Holds d → d.toRat = exact → ∃ r, step = .ok r ∧ p.Holds r ∧
    r.toRat = exact ∧ (r.exponent - ideal).natAbs ≤ (d.exponent - ideal).natAbs

theorem coefficient_eq_of_toRat_eq {a b : Decimal} (h : a.toRat = b.toRat)
    (he : a.exponent = b.exponent) : a.coefficient = b.coefficient := by
  have habs : |a.toRat| = |b.toRat| := by rw [h]
  rw [abs_toRat, abs_toRat, he] at habs
  exact_mod_cast mul_right_cancel₀ (ten_zpow_pos _).ne' habs

namespace Calculator

variable {p : Precision} {exact : ℚ} {ideal : ℤ}

theorem roundsOnce_arithmeticResult {m : Except Signal Decimal}
    (h : p.Delivers exact m ∧ p.Keeps exact ideal m) :
    RoundsOnce p exact ideal (arithmeticResult m) := by
  obtain ⟨hdelivers, hkeeps⟩ := h
  have hbound : greatestExponent + 1 = 1000000 := rfl
  refine ⟨fun hlt => ?_, fun hle => ?_, fun d hd hexact hideal => ?_, fun d hd hexact => ?_⟩
  · cases m with
    | ok r => exact ⟨r, rfl, (hdelivers.of_ok r rfl).1⟩
    | error s =>
      have hle := (hdelivers.of_error s rfl).2
      rw [hbound] at hle
      exact absurd hlt (not_lt.mpr hle)
  · cases m with
    | ok r =>
      have hlt := (hdelivers.of_ok r rfl).2
      rw [hbound] at hlt
      exact absurd hlt (not_lt.mpr hle)
    | error s =>
      rw [(hdelivers.of_error s rfl).1]
      rfl
  · obtain ⟨r, rfl, -, hr, hclose⟩ := hkeeps d hd hexact
    have he : r.exponent = d.exponent := by
      rw [hideal, sub_self, Int.natAbs_zero, Nat.le_zero, Int.natAbs_eq_zero] at hclose
      omega
    exact ⟨r, rfl, coefficient_eq_of_toRat_eq (hr.trans hexact.symm) he, he⟩
  · obtain ⟨r, rfl, hr⟩ := hkeeps d hd hexact
    exact ⟨r, rfl, hr⟩

variable (k : Calculator) (a b : Decimal)

theorem roundsOnce_add : RoundsOnce k.precision (a.toRat + b.toRat) (min a.exponent b.exponent)
    (k.addOrSub '+' a b) := by
  rw [addOrSub, if_pos rfl]
  exact roundsOnce_arithmeticResult (add_delivers k.precision a b)

theorem roundsOnce_sub : RoundsOnce k.precision (a.toRat - b.toRat) (min a.exponent b.exponent)
    (k.addOrSub '-' a b) := by
  rw [addOrSub, if_neg (by decide)]
  exact roundsOnce_arithmeticResult (sub_delivers k.precision a b)

theorem roundsOnce_mul (place : Cursor) : RoundsOnce k.precision (a.toRat * b.toRat)
    (a.exponent + b.exponent) (k.mulOrDiv '*' place a b) := by
  rw [mulOrDiv, if_pos rfl]
  exact roundsOnce_arithmeticResult (mul_delivers k.precision a b)

theorem roundsOnce_div (place : Cursor) (hb : b.toRat ≠ 0) :
    RoundsOnce k.precision (a.toRat / b.toRat) (a.exponent - b.exponent)
      (k.mulOrDiv '/' place a b) := by
  have hzero : b.isZero = false := by
    rw [← Bool.not_eq_true]
    exact fun h => hb (toRat_eq_zero_iff.mpr h)
  rw [mulOrDiv, if_neg (by decide), hzero, if_neg (by decide)]
  exact roundsOnce_arithmeticResult (div_delivers k.precision hzero)

end Calculator

/-! ### Exact expressions -/

/-- The precision holds the number. -/
def Precision.Represents (p : Precision) (x : ℚ) : Prop := ∃ d, p.Holds d ∧ d.toRat = x

/-- The exact sum or difference. -/
def Sign.exact : Sign → ℚ → ℚ → ℚ
  | plus, x, y => x + y
  | minus, x, y => x - y

/-- The exact product or quotient. -/
def Scale.exact : Scale → ℚ → ℚ → ℚ
  | times, x, y => x * y
  | divided, x, y => x / y

/-- A step that the precision can hold is taken exactly. -/
theorem Sign.combine_exact {k : Calculator} (s : Sign) {v w : Decimal}
    (h : k.precision.Represents (s.exact v.toRat w.toRat)) :
    ∃ r, s.combine k v w = .ok r ∧ r.toRat = s.exact v.toRat w.toRat := by
  obtain ⟨d, hd, hexact⟩ := h
  cases s with
  | plus =>
    obtain ⟨r, hr, -, hval, -⟩ := (add_delivers k.precision v w).2 d hd hexact
    exact ⟨r, by rw [combine, hr]; rfl, hval⟩
  | minus =>
    obtain ⟨r, hr, -, hval, -⟩ := (sub_delivers k.precision v w).2 d hd hexact
    exact ⟨r, by rw [combine, hr]; rfl, hval⟩

theorem Scale.combine_exact {k : Calculator} (s : Scale) {v w : Decimal}
    (hw : s = divided → w.toRat ≠ 0) (h : k.precision.Represents (s.exact v.toRat w.toRat)) :
    ∃ r, s.combine k v w = .ok r ∧ r.toRat = s.exact v.toRat w.toRat := by
  obtain ⟨d, hd, hexact⟩ := h
  cases s with
  | times =>
    obtain ⟨r, hr, -, hval, -⟩ := (mul_delivers k.precision v w).2 d hd hexact
    exact ⟨r, by rw [combine, hr]; rfl, hval⟩
  | divided =>
    have hzero : w.isZero = false := by
      rw [← Bool.not_eq_true]
      exact fun hz => hw rfl (toRat_eq_zero_iff.mpr hz)
    obtain ⟨r, hr, -, hval, -⟩ := (div_delivers k.precision hzero).2 d hd hexact
    exact ⟨r, by rw [combine, hzero, if_neg (by decide), hr]; rfl, hval⟩

namespace Tree

variable {r : Rule}

/-- **The rational number** that a tree of sums, differences, products, quotients, signs and groups
stands for. A repetition folds its operands into the number `x` before it. -/
def rational : {r : Rule} → ℚ → Tree r → ℚ
  | _, x, expression first more => more.rational (first.rational x)
  | _, x, noSummand => x
  | _, x, summand s t more => more.rational (s.exact x (t.rational x))
  | _, x, term first more => more.rational (first.rational x)
  | _, x, noFactor => x
  | _, x, factor s t more => more.rational (s.exact x (t.rational x))
  | _, x, base p => p.rational x
  | _, _, power _ _ => 0
  | _, x, unsigned o => o.rational x
  | _, x, signed .plus o => o.rational x
  | _, x, signed .minus o => -o.rational x
  | _, _, root _ => 0
  | _, x, group e => e.rational x
  | _, _, number l => ((ofPlain? l.text).getD (.ofNat 0)).toRat

/-- The tree has no powers and roots, its literals have values, it divides by no zero, and the
precision holds the exact result of each sum, difference, product and quotient. -/
def Representable (p : Precision) : {r : Rule} → ℚ → Tree r → Prop
  | _, x, expression first more => first.Representable p x ∧ more.Representable p (first.rational x)
  | _, _, noSummand => True
  | _, x, summand s t more => t.Representable p x ∧ p.Represents (s.exact x (t.rational x)) ∧
      more.Representable p (s.exact x (t.rational x))
  | _, x, term first more => first.Representable p x ∧ more.Representable p (first.rational x)
  | _, _, noFactor => True
  | _, x, factor s t more => t.Representable p x ∧ (s = .divided → t.rational x ≠ 0) ∧
      p.Represents (s.exact x (t.rational x)) ∧
      more.Representable p (s.exact x (t.rational x))
  | _, x, base p' => p'.Representable p x
  | _, _, power _ _ => False
  | _, x, unsigned o => o.Representable p x
  | _, x, signed _ o => o.Representable p x
  | _, _, root _ => False
  | _, x, group e => e.Representable p x
  | _, _, number l => (ofPlain? l.text).isSome = true

/-- **The value of a representable tree is exact.** -/
theorem exists_value {k : Calculator} (t : Tree r) (v : Decimal)
    (h : t.Representable k.precision v.toRat) :
    ∃ w, t.value k v = .ok w ∧ w.toRat = t.rational v.toRat := by
  induction t generalizing v with
  | expression first more ih1 ih2 | term first more ih1 ih2 =>
    obtain ⟨h1, h2⟩ := h
    obtain ⟨w, hw, hwrat⟩ := ih1 v h1
    rw [← hwrat] at h2
    obtain ⟨x, hx, hxrat⟩ := ih2 w h2
    exact ⟨x, by rw [value, hw]; exact hx, by rw [hxrat, hwrat, rational]⟩
  | noSummand | noFactor => exact ⟨v, rfl, rfl⟩
  | summand s t more ih1 ih2 =>
    obtain ⟨h1, h2, h3⟩ := h
    obtain ⟨w, hw, hwrat⟩ := ih1 v h1
    rw [← hwrat] at h2 h3
    obtain ⟨x, hx, hxrat⟩ := s.combine_exact h2
    rw [← hxrat] at h3
    obtain ⟨y, hy, hyrat⟩ := ih2 x h3
    refine ⟨y, ?_, by rw [hyrat, hxrat, hwrat, rational]⟩
    rw [value, hw, ← hy]
    exact congrArg (· >>= fun x => more.value k x) hx
  | factor s t more ih1 ih2 =>
    obtain ⟨h1, hzero, h2, h3⟩ := h
    obtain ⟨w, hw, hwrat⟩ := ih1 v h1
    rw [← hwrat] at hzero h2 h3
    obtain ⟨x, hx, hxrat⟩ := s.combine_exact hzero h2
    rw [← hxrat] at h3
    obtain ⟨y, hy, hyrat⟩ := ih2 x h3
    refine ⟨y, ?_, by rw [hyrat, hxrat, hwrat, rational]⟩
    rw [value, hw, ← hy]
    exact congrArg (· >>= fun x => more.value k x) hx
  | base p ih | unsigned o ih | group e ih => exact ih v h
  | signed s o ih =>
    obtain ⟨w, hw, hwrat⟩ := ih v h
    refine ⟨s.apply w, by rw [value, hw]; rfl, ?_⟩
    cases s with
    | plus => exact hwrat
    | minus => rw [Sign.apply, toRat_neg, hwrat, rational]
  | power p e => exact h.elim
  | root p => exact h.elim
  | number l =>
    obtain ⟨w, hw⟩ := Option.isSome_iff_exists.mp h
    exact ⟨w, by rw [value, Literal.value, hw], by rw [rational, hw, Option.getD_some]⟩

end Tree

/-! ### Evaluation -/

namespace Calculator

theorem toRat_unsignedZero (v : Decimal) : (unsignedZero v).toRat = v.toRat := by
  unfold unsignedZero
  split_ifs with h
  · rw [toRat_eq_zero_iff.mpr h, toRat_eq_zero_iff.mpr (by rwa [isZero_abs])]
  · rfl

/-- **The operations are correctly rounded**, each step of the folds once. An overflow that ends the
reading is reported as such. Hence an expression of literals, `+ - * /`, signs and groups has exactly
the rational number for its value that it stands for, if the precision holds the exact result of
each operation. -/
theorem arithmetic_rounds_once (k : Calculator) :
    (∀ a b : Decimal, RoundsOnce k.precision (a.toRat + b.toRat) (min a.exponent b.exponent)
      (k.addOrSub '+' a b)) ∧
    (∀ a b : Decimal, RoundsOnce k.precision (a.toRat - b.toRat) (min a.exponent b.exponent)
      (k.addOrSub '-' a b)) ∧
    (∀ (a b : Decimal) (place : Cursor), RoundsOnce k.precision (a.toRat * b.toRat)
      (a.exponent + b.exponent) (k.mulOrDiv '*' place a b)) ∧
    (∀ (a b : Decimal) (place : Cursor), b.toRat ≠ 0 → RoundsOnce k.precision (a.toRat / b.toRat)
      (a.exponent - b.exponent) (k.mulOrDiv '/' place a b)) ∧
    (∀ (s : List Char) (stop : Cursor), normalize s ≠ [] →
      k.expression (.start (normalize s) (some nestingLimit)) = .fault (.signal .overflow) stop →
      ∃ e, k.evaluate s = .error (.error e) ∧ e.kind = .numericOverflow) ∧
    (∀ (s : List Char) (d : Derivation (normalize s)), d.depth ≤ nestingLimit →
      d.tree.Representable k.precision 0 →
      ∃ v, k.evaluate s = .ok v ∧ v.toRat = d.tree.rational 0) := by
  refine ⟨roundsOnce_add k, roundsOnce_sub k, roundsOnce_mul k, roundsOnce_div k,
    fun s stop hs h => ?_, fun s d hd h => ?_⟩
  · rw [evaluate_of_ne_nil hs]
    exact evaluateNormal_of_fault h
  · have hzero : (Decimal.ofNat 0).toRat = 0 := toRat_eq_zero_iff.mpr rfl
    rw [← hzero] at h ⊢
    obtain ⟨w, hw, hwrat⟩ := d.tree.exists_value _ h
    exact ⟨_, (evaluate_of_derivation k d hd).of_ok w hw, by rw [toRat_unsignedZero, hwrat]⟩

end Calculator

end InfixCalculator
