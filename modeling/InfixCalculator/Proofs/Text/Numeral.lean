import InfixCalculator.Text.Numeral
import Mathlib.Algebra.Group.Nat.Defs
import Mathlib.Data.List.Basic

/-! # Numerals are read as they are written

* `horner_replicate_append`, `horner_append_replicate`: zeros before and behind a numeral.
* `valueOf_digitsOf`: the digits of a number denote it.
* `mapM_digitValue?`: digits written as characters are read back. -/

namespace InfixCalculator.Text

/-! ### Zeros -/

theorem horner_replicate (k : ℕ) : horner (List.replicate k 0) = 0 := by
  induction k with
  | zero => rfl
  | succ k ih =>
    rw [List.replicate_succ', horner_append, ih, Nat.zero_mul, Nat.zero_add]
    rfl

theorem horner_replicate_append (k : ℕ) (ds : List ℕ) :
    horner (List.replicate k 0 ++ ds) = horner ds := by
  rw [horner_append, horner_replicate, Nat.zero_mul, Nat.zero_add]

theorem horner_append_replicate (ds : List ℕ) (k : ℕ) :
    horner (ds ++ List.replicate k 0) = horner ds * 10 ^ k := by
  rw [horner_append, horner_replicate, List.length_replicate, Nat.add_zero]

theorem horner_dropWhile (ds : List ℕ) : horner (ds.dropWhile (· = 0)) = horner ds := by
  induction ds with
  | nil => rfl
  | cons d ds ih =>
    by_cases hd : d = 0
    · rw [List.dropWhile_cons_of_pos (by simpa using hd), ih, hd]
      exact (horner_replicate_append 1 ds).symm
    · rw [List.dropWhile_cons_of_neg (by simpa using hd)]

/-! ### Digits of a number -/

theorem length_digitBlock (depth n : ℕ) : (digitBlock depth n).length = 2 ^ depth := by
  induction depth generalizing n with
  | zero => rfl
  | succ depth ih => rw [digitBlock, List.length_append, ih, ih, Nat.pow_succ]; omega

theorem horner_digitBlock (depth : ℕ) {n : ℕ} (h : n < 10 ^ 2 ^ depth) :
    horner (digitBlock depth n) = n := by
  induction depth generalizing n with
  | zero =>
    rw [digitBlock, horner, List.foldl_cons, List.foldl_nil, Nat.mul_zero, Nat.zero_add]
    exact Nat.mod_eq_of_lt h
  | succ depth ih =>
    have hpos : 0 < 10 ^ 2 ^ depth := Nat.pow_pos (by decide)
    have hhigh : n / 10 ^ 2 ^ depth < 10 ^ 2 ^ depth := by
      rw [Nat.div_lt_iff_lt_mul hpos, ← Nat.pow_add, ← Nat.two_mul, Nat.mul_comm, ← Nat.pow_succ]
      exact h
    rw [digitBlock, horner_append, ih hhigh, ih (Nat.mod_lt _ hpos), length_digitBlock]
    exact Nat.div_add_mod' n (10 ^ 2 ^ depth)

/-- **The digits of a number denote it.** -/
theorem valueOf_digitsOf (n : ℕ) : valueOf (digitsOf n) = n := by
  rw [valueOf_eq_horner]
  unfold digitsOf
  split
  · rename_i h
    rw [h]
    rfl
  · rw [horner_dropWhile, horner_digitBlock _ (lt_pow_enoughDepth (by decide) n)]

theorem digitsOf_ne_nil (n : ℕ) : digitsOf n ≠ [] := by
  intro h
  have hval := valueOf_digitsOf n
  rw [h, valueOf_eq_horner] at hval
  have hn : n = 0 := hval.symm
  rw [hn] at h
  cases h

/-! ### Characters -/

theorem mapM_digitValue? {ds : List ℕ} (h : ∀ d ∈ ds, d < 10) :
    (ds.map digitChar).mapM digitValue? = some ds := by
  induction ds with
  | nil => rfl
  | cons d ds ih =>
    rw [List.map_cons, List.mapM_cons, digitValue?_digitChar (h d List.mem_cons_self),
      ih fun e he => h e (List.mem_cons_of_mem _ he)]
    rfl

theorem digitChar_ne {x : Char} (hx : digitValue? x = none) {d : ℕ} (hd : d < 10) :
    digitChar d ≠ x := by
  rintro rfl
  rw [digitValue?_digitChar hd] at hx
  cases hx

end InfixCalculator.Text
