import InfixCalculator.Proofs.Rounding.Magnitude
import InfixCalculator.Proofs.Text.Numeral
import Mathlib.Data.Nat.Digits.Lemmas

/-! # Numerals without leading zeros

* `Text.horner_eq_ofDigits`: the value of a numeral is that of its digits in the opposite order.
* `Text.eq_of_horner_eq`: digits without zeros in front are known from their value.
* `Text.withoutZeros`: digits without the zeros in front; `Text.digitsOf_horner`: these are the digits of
  the value.
* `Text.length_digitsOf`: how many digits a number has. -/

namespace InfixCalculator.Text

variable {ds es : List ℕ}

theorem horner_eq_ofDigits (ds : List ℕ) : horner ds = Nat.ofDigits 10 ds.reverse := by
  induction ds using List.reverseRecOn with
  | nil => rfl
  | append_singleton ds d ih =>
    rw [horner_append, List.reverse_append, List.reverse_singleton, List.singleton_append,
      Nat.ofDigits_cons, ih]
    simp [horner]
    omega

/-- The first digit, if there is one, is not zero. -/
def LeadsNonzero (ds : List ℕ) : Prop := ∀ d, ds.head? = some d → d ≠ 0

theorem leadsNonzero_dropWhile (ds : List ℕ) : LeadsNonzero (ds.dropWhile (· = 0)) := by
  intro d hd
  have hnot := List.head?_dropWhile_not (fun d : ℕ => decide (d = 0)) ds
  rw [hd] at hnot
  simpa using hnot

theorem digits_horner (h : ∀ d ∈ ds, d < 10) (hlead : LeadsNonzero ds) :
    Nat.digits 10 (horner ds) = ds.reverse := by
  rw [horner_eq_ofDigits]
  refine Nat.digits_ofDigits 10 (by norm_num) _ (fun d hd => h d (List.mem_reverse.mp hd)) fun hne => ?_
  refine hlead _ ?_
  rw [List.getLast_reverse, List.head?_eq_some_head]

/-- **Digits without zeros in front** are known from their value. -/
theorem eq_of_horner_eq (hd : ∀ d ∈ ds, d < 10) (he : ∀ d ∈ es, d < 10) (hds : LeadsNonzero ds)
    (hes : LeadsNonzero es) (h : horner ds = horner es) : ds = es := by
  have hreverse : ds.reverse = es.reverse := by rw [← digits_horner hd hds, h, digits_horner he hes]
  exact List.reverse_injective hreverse

theorem leadsNonzero_digitsOf {n : ℕ} (h : n ≠ 0) : LeadsNonzero (digitsOf n) := by
  rw [digitsOf, if_neg h]
  exact leadsNonzero_dropWhile _

/-- The digits without the zeros in front; one zero is kept if there is nothing else. -/
def withoutZeros (ds : List ℕ) : List ℕ :=
  if ds.dropWhile (· = 0) = [] then [0] else ds.dropWhile (· = 0)

theorem horner_eq_zero_iff : horner ds = 0 ↔ ds.dropWhile (· = 0) = [] := by
  rw [← horner_dropWhile]
  have hlead := leadsNonzero_dropWhile ds
  cases hds : ds.dropWhile (· = 0) with
  | nil => simp [horner]
  | cons d rest =>
    have hd : d ≠ 0 := hlead d (by rw [hds]; rfl)
    have hval : horner (d :: rest) = d * 10 ^ rest.length + horner rest := by
      rw [← List.singleton_append, horner_append]
      simp [horner]
    have hpos : 0 < d * 10 ^ rest.length := by positivity
    simp only [hval, reduceCtorEq, iff_false]
    omega

/-- **The digits of the value** of a numeral are its own, without the zeros in front. -/
theorem digitsOf_horner (h : ∀ d ∈ ds, d < 10) : digitsOf (horner ds) = withoutZeros ds := by
  by_cases hzero : horner ds = 0
  · rw [withoutZeros, if_pos (horner_eq_zero_iff.mp hzero), hzero]
    rfl
  · rw [withoutZeros, if_neg (horner_eq_zero_iff.not.mp hzero)]
    refine eq_of_horner_eq (fun d hd => mem_digitsOf_lt hd) (fun d hd => ?_)
      (leadsNonzero_digitsOf hzero) (leadsNonzero_dropWhile ds) ?_
    · exact h d ((List.dropWhile_sublist _).subset hd)
    · rw [horner_dropWhile, ← valueOf_eq_horner, valueOf_digitsOf]

/-- How many digits a number has; zero has one. -/
theorem length_digitsOf (n : ℕ) : (digitsOf n).length = max 1 (digitCount 10 n) := by
  rcases Nat.eq_zero_or_pos n with rfl | hpos
  · rfl
  · have hreverse : Nat.digits 10 n = (digitsOf n).reverse := by
      conv_lhs => rw [← valueOf_digitsOf n, valueOf_eq_horner]
      exact digits_horner (fun d hd => mem_digitsOf_lt hd) (leadsNonzero_digitsOf hpos.ne')
    have hlen : (digitsOf n).length = (Nat.digits 10 n).length := by
      rw [hreverse, List.length_reverse]
    rw [hlen, Nat.length_digits 10 n (by norm_num) hpos.ne', digitCount_eq_log (by norm_num) hpos]
    omega

end InfixCalculator.Text
