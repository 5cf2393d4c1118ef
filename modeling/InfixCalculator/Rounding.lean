/-! # Rounding to nearest

Positive rationals and their nearest numbers of a bounded count of digits, in any base: what decimal
arithmetic (base ten) and binary floating point (base two) have in common.

* `nearest`: the integer nearest to a quotient, a half going to the even neighbour;
  `nearest_of_dvd`: an integral quotient is kept.
* `digitCount`: the number of digits of an integer; `lt_pow_digitCount`, `pow_digitCount_le`: it is
  the least count whose power exceeds the integer.
* `Magnitude.rounded`: the nearest number of at most `digits` digits on the grid of a least
  exponent. -/

namespace InfixCalculator

-- Powers of integers are the core ones, whatever else is imported.
attribute [local instance (high)] instPowNat

/-! ## Quotients -/

/-- The integer nearest to `n / d`, a half going to the even neighbour. -/
def nearest (n d : Nat) : Nat :=
  let q := n / d
  let r := n % d
  if 2 * r < d then q else if d < 2 * r then q + 1 else q + q % 2

theorem nearest_of_dvd {n d : Nat} (hd : 0 < d) (h : d ∣ n) : nearest n d = n / d := by
  simp [nearest, Nat.mod_eq_zero_of_dvd h, hd]

theorem nearest_one (n : Nat) : nearest n 1 = n := by
  rw [nearest_of_dvd (by decide) (Nat.one_dvd n), Nat.div_one]

/-! ## Counting digits -/

/-- The number of digits of `n` in base `base`, given that `2 ^ depth` of them are enough. -/
def countWithin (base : Nat) : Nat → Nat → Nat
  | 0, n => if n = 0 then 0 else 1
  | depth + 1, n =>
    if n < base ^ (2 : Nat) ^ depth then countWithin base depth n
    else 2 ^ depth + countWithin base depth (n / base ^ (2 : Nat) ^ depth)

/-- A depth for which `2 ^ depth` digits hold `n`, in any base. -/
def enoughDepth (n : Nat) : Nat := n.log2.log2 + 1

/-- The number of digits of `n` in base `base`; zero has none. -/
def digitCount (base n : Nat) : Nat := countWithin base (enoughDepth n) n

theorem lt_pow_enoughDepth {base : Nat} (hb : 2 ≤ base) (n : Nat) :
    n < base ^ (2 : Nat) ^ enoughDepth n :=
  calc n < 2 ^ (n.log2 + 1) := Nat.lt_log2_self
    _ ≤ 2 ^ (2 : Nat) ^ enoughDepth n := Nat.pow_le_pow_right (by decide) Nat.lt_log2_self
    _ ≤ base ^ (2 : Nat) ^ enoughDepth n := Nat.pow_le_pow_left hb _

theorem countWithin_bounds {base : Nat} (hb : 2 ≤ base) (depth n : Nat)
    (h : n < base ^ (2 : Nat) ^ depth) :
    n < base ^ countWithin base depth n ∧ (0 < n → base ^ countWithin base depth n ≤ base * n) := by
  induction depth generalizing n with
  | zero =>
    rw [Nat.pow_zero, Nat.pow_one] at h
    rw [countWithin]
    split
    · subst n
      exact ⟨Nat.one_pos, fun hn => absurd hn (Nat.lt_irrefl 0)⟩
    · rw [Nat.pow_one]
      exact ⟨h, fun hn => Nat.le_mul_of_pos_right _ hn⟩
  | succ depth ih =>
    simp only [countWithin]
    have hpos : 0 < base ^ (2 : Nat) ^ depth := Nat.pow_pos (by omega)
    split
    · exact ih n ‹_›
    · rename_i hle
      have hlt : n / base ^ (2 : Nat) ^ depth < base ^ (2 : Nat) ^ depth := by
        rw [Nat.div_lt_iff_lt_mul hpos, ← Nat.pow_add, ← Nat.two_mul, Nat.mul_comm, ← Nat.pow_succ]
        exact h
      obtain ⟨h1, h2⟩ := ih _ hlt
      have hdiv : 0 < n / base ^ (2 : Nat) ^ depth := Nat.div_pos (by omega) hpos
      rw [Nat.pow_add]
      constructor
      · rw [Nat.mul_comm]
        exact (Nat.div_lt_iff_lt_mul hpos).1 h1
      · intro _
        calc base ^ (2 : Nat) ^ depth * base ^ countWithin base depth (n / base ^ (2 : Nat) ^ depth)
            ≤ base ^ (2 : Nat) ^ depth * (base * (n / base ^ (2 : Nat) ^ depth)) :=
              Nat.mul_le_mul_left _ (h2 hdiv)
          _ = base * (n / base ^ (2 : Nat) ^ depth * base ^ (2 : Nat) ^ depth) := by
            rw [Nat.mul_left_comm, Nat.mul_comm (n / _)]
          _ ≤ base * n := Nat.mul_le_mul_left _ (Nat.div_mul_le_self _ _)

theorem lt_pow_digitCount {base : Nat} (hb : 2 ≤ base) (n : Nat) : n < base ^ digitCount base n :=
  (countWithin_bounds hb _ n (lt_pow_enoughDepth hb n)).1

theorem pow_digitCount_le {base n : Nat} (hb : 2 ≤ base) (hn : 0 < n) :
    base ^ digitCount base n ≤ base * n :=
  (countWithin_bounds hb _ n (lt_pow_enoughDepth hb n)).2 hn

/-! ## Magnitudes -/

/-- A positive rational `numerator / denominator * base ^ scale`, the base being given by its
use. -/
structure Magnitude where
  numerator : Nat
  denominator : Nat
  scale : Int

namespace Magnitude

/-- The exponent of the first digit: the greatest `k` for which `base ^ k` is at most the
magnitude. -/
def order (base : Nat) (x : Magnitude) : Int :=
  let k : Int := digitCount base x.numerator - digitCount base x.denominator
  if x.denominator * base ^ k.toNat ≤ x.numerator * base ^ (-k).toNat then x.scale + k
  else x.scale + k - 1

/-- The nearest multiple of `base ^ quantum`, in units of it. -/
def units (base : Nat) (quantum : Int) (x : Magnitude) : Nat :=
  nearest (x.numerator * base ^ (x.scale - quantum).toNat)
    (x.denominator * base ^ (quantum - x.scale).toNat)

/-- The nearest number `c * base ^ q` for which `c` has at most `digits` digits and `q` is at least
`least`, as the pair of `c` and `q`. -/
def rounded (base digits : Nat) (least : Int) (x : Magnitude) : Nat × Int :=
  let quantum := max (x.order base - (digits - 1)) least
  let c := x.units base quantum
  if digits < digitCount base c then (c / base, quantum + 1) else (c, quantum)

end Magnitude

end InfixCalculator
