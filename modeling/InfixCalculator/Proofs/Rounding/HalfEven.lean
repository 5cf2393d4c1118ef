import InfixCalculator.Rounding
import Mathlib.Data.Rat.Floor
import Mathlib.Tactic.FieldSimp
import Mathlib.Tactic.Linarith
import Mathlib.Tactic.Positivity

/-! # Rounding half to even

The nearest integer of a rational, a half going to the even neighbour, and `nearest` as its form for
a quotient of naturals.

* `abs_sub_roundHalfEven_le`: what makes it the nearest integer.
* `roundHalfEven_neg`: it does not depend on the sign.
* `roundHalfEven_of_abs_sub_lt`: an integer less than a half away is the nearest one.
* `nearest_eq_roundHalfEven`: `nearest n d` rounds `n / d`. -/

namespace InfixCalculator

/-- The nearest integer, a half going to the even neighbour. -/
def roundHalfEven (x : ℚ) : ℤ :=
  if Int.fract x < 1 / 2 then ⌊x⌋
  else if 1 / 2 < Int.fract x then ⌊x⌋ + 1
  else if Even ⌊x⌋ then ⌊x⌋ else ⌊x⌋ + 1

theorem roundHalfEven_intCast (n : ℤ) : roundHalfEven n = n := by
  unfold roundHalfEven
  rw [Int.fract_intCast, if_pos (by norm_num), Int.floor_intCast]

theorem roundHalfEven_of_fract {x : ℚ} (h : Int.fract x = 1 / 2) :
    roundHalfEven x = if Even ⌊x⌋ then ⌊x⌋ else ⌊x⌋ + 1 := by
  unfold roundHalfEven
  rw [if_neg (by rw [h]; exact lt_irrefl _), if_neg (by rw [h]; exact lt_irrefl _)]

/-- **The distance** to the rounded value is at most a half. -/
theorem abs_sub_roundHalfEven_le (x : ℚ) : |x - roundHalfEven x| ≤ 1 / 2 := by
  have hx := Int.floor_add_fract x
  have h0 := Int.fract_nonneg x
  have h1 := Int.fract_lt_one x
  rw [abs_le]
  unfold roundHalfEven
  split_ifs with h h' <;> push_cast <;> constructor <;> linarith

theorem roundHalfEven_neg (x : ℚ) : roundHalfEven (-x) = -roundHalfEven x := by
  by_cases h0 : Int.fract x = 0
  · obtain ⟨n, rfl⟩ : ∃ n : ℤ, x = n := ⟨⌊x⌋, by have := Int.floor_add_fract x; linarith⟩
    rw [← Int.cast_neg, roundHalfEven_intCast, roundHalfEven_intCast]
  have hfract : Int.fract (-x) = 1 - Int.fract x := Int.fract_neg h0
  have hfloor : ⌊-x⌋ = -⌊x⌋ - 1 := by
    have h1 := Int.floor_add_fract x
    have h2 := Int.floor_add_fract (-x)
    have h3 : (⌊-x⌋ : ℚ) = ((-⌊x⌋ - 1 : ℤ) : ℚ) := by push_cast; linarith
    exact_mod_cast h3
  rcases lt_trichotomy (Int.fract x) (1 / 2) with h | h | h
  · rw [roundHalfEven, roundHalfEven, hfract, hfloor, if_neg (by linarith), if_pos (by linarith),
      if_pos h]
    ring
  · rw [roundHalfEven_of_fract h, roundHalfEven_of_fract (by rw [hfract]; linarith), hfloor]
    have he : Even (-⌊x⌋ - 1) ↔ ¬ Even ⌊x⌋ := by rw [Int.even_sub_one, even_neg]
    by_cases hx : Even ⌊x⌋
    · rw [if_neg (by rw [he]; exact not_not_intro hx), if_pos hx]; ring
    · rw [if_pos (he.mpr hx), if_neg hx]; ring
  · rw [roundHalfEven, roundHalfEven, hfract, hfloor, if_pos (by linarith), if_neg (by linarith),
      if_pos h]
    ring

theorem roundHalfEven_le {x : ℚ} {n : ℤ} (h : x ≤ n) : roundHalfEven x ≤ n := by
  rcases eq_or_lt_of_le h with rfl | h
  · rw [roundHalfEven_intCast]
  · have hf : ⌊x⌋ < n := Int.floor_lt.mpr h
    unfold roundHalfEven
    split_ifs <;> omega

theorem le_roundHalfEven {x : ℚ} {n : ℤ} (h : n ≤ x) : n ≤ roundHalfEven x := by
  have hneg := roundHalfEven_le (x := -x) (n := -n) (by push_cast; linarith)
  rw [roundHalfEven_neg] at hneg
  omega

/-- **An integer less than a half away** is the rounded value. -/
theorem roundHalfEven_of_abs_sub_lt {x : ℚ} {n : ℤ} (h : |x - n| < 1 / 2) : roundHalfEven x = n := by
  have hx := abs_le.mp (abs_sub_roundHalfEven_le x)
  have hn := abs_lt.mp h
  have hupper : (roundHalfEven x : ℚ) < ((n + 1 : ℤ) : ℚ) := by push_cast; linarith
  have hlower : ((n - 1 : ℤ) : ℚ) < roundHalfEven x := by push_cast; linarith
  have hlt := Int.cast_lt.mp hupper
  have hgt := Int.cast_lt.mp hlower
  omega

/-- **`nearest` rounds a quotient.** -/
theorem nearest_eq_roundHalfEven (n : ℕ) {d : ℕ} (hd : 0 < d) :
    (nearest n d : ℤ) = roundHalfEven (n / d : ℚ) := by
  have hd' : (0 : ℚ) < d := by exact_mod_cast hd
  have hfloor : ⌊(n / d : ℚ)⌋ = ((n / d : ℕ) : ℤ) := by
    rw [Rat.floor_natCast_div_natCast]; rfl
  have hfract : Int.fract (n / d : ℚ) = ((n % d : ℕ) : ℚ) / d := by
    have hn : ((d * (n / d) + n % d : ℕ) : ℚ) = n := by rw [Nat.div_add_mod]
    push_cast at hn
    have : Int.fract (n / d : ℚ) = n / d - ((n / d : ℕ) : ℚ) := by
      rw [Int.fract, hfloor]; rfl
    rw [this, eq_div_iff hd'.ne', sub_mul, div_mul_cancel₀ _ hd'.ne']
    linarith
  have hlt : Int.fract (n / d : ℚ) < 1 / 2 ↔ 2 * (n % d) < d := by
    rw [hfract, div_lt_div_iff₀ hd' two_pos, ← Nat.cast_lt (α := ℚ)]
    push_cast
    constructor <;> intro h <;> linarith
  have hgt : 1 / 2 < Int.fract (n / d : ℚ) ↔ d < 2 * (n % d) := by
    rw [hfract, div_lt_div_iff₀ two_pos hd', ← Nat.cast_lt (α := ℚ)]
    push_cast
    constructor <;> intro h <;> linarith
  unfold roundHalfEven nearest
  simp only [hlt, hgt, hfloor]
  split_ifs with h1 h2 h3
  · rfl
  · push_cast; rfl
  · have : n / d % 2 = 0 := Nat.even_iff.mp (by exact_mod_cast h3)
    rw [this, Nat.add_zero]
  · have : n / d % 2 = 1 := Nat.odd_iff.mp (Nat.not_even_iff_odd.mp (by exact_mod_cast h3))
    rw [this]; push_cast; rfl

end InfixCalculator
