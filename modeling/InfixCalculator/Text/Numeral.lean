import InfixCalculator.Rounding
import InfixCalculator.Text.Digit

/-! # Decimal numerals of natural numbers

Numbers and their decimal digits, most significant first. Both directions halve the numeral at each
step, so that long numerals stay cheap.

* `valueOf`: the number that a list of digits denotes; `valueOf_eq_horner`: it is the one that
  Horner's rule gives.
* `digitsOf`: the digits of a number, without leading zeros; zero has the one digit `0`.
* `numeral`: the digits as characters. -/

namespace InfixCalculator.Text

attribute [local instance (high)] instPowNat

/-! ## From digits to numbers -/

/-- Horner's rule. -/
def horner (digits : List Nat) : Nat := digits.foldl (fun n d => 10 * n + d) 0

/-- The number that the digits denote, the numeral being halved `depth` times. -/
def halvedValue : Nat → List Nat → Nat
  | 0, digits => horner digits
  | depth + 1, digits =>
    let half := digits.length / 2
    halvedValue depth (digits.take half) * 10 ^ (digits.length - half) +
      halvedValue depth (digits.drop half)

/-- The number that the digits denote. -/
def valueOf (digits : List Nat) : Nat := halvedValue (digits.length.log2 - 5) digits

theorem foldl_horner (digits : List Nat) (n : Nat) :
    digits.foldl (fun n d => 10 * n + d) n = n * 10 ^ digits.length + horner digits := by
  unfold horner
  induction digits generalizing n with
  | nil => simp
  | cons d digits ih =>
    simp only [List.foldl_cons, List.length_cons]
    rw [ih, ih (10 * 0 + d), Nat.pow_succ]
    grind

theorem horner_append (xs ys : List Nat) :
    horner (xs ++ ys) = horner xs * 10 ^ ys.length + horner ys := by
  rw [horner, List.foldl_append, foldl_horner]
  rfl

theorem halvedValue_eq (depth : Nat) (digits : List Nat) :
    halvedValue depth digits = horner digits := by
  induction depth generalizing digits with
  | zero => rfl
  | succ depth ih =>
    simp only [halvedValue, ih]
    rw [← List.length_drop, ← horner_append, List.take_append_drop]

theorem valueOf_eq_horner (digits : List Nat) : valueOf digits = horner digits :=
  halvedValue_eq _ _

/-! ## From numbers to digits -/

/-- The `2 ^ depth` lowest digits of `n`. -/
def digitBlock : Nat → Nat → List Nat
  | 0, n => [n % 10]
  | depth + 1, n =>
    digitBlock depth (n / 10 ^ (2 : Nat) ^ depth) ++ digitBlock depth (n % 10 ^ (2 : Nat) ^ depth)

/-- The digits of `n`, without leading zeros. -/
def digitsOf (n : Nat) : List Nat :=
  if n = 0 then [0] else (digitBlock (enoughDepth n) n).dropWhile (· = 0)

/-- The numeral of `n` in ASCII digits. -/
def numeral (n : Nat) : List Char := (digitsOf n).map digitChar

theorem mem_digitBlock_lt {depth n d : Nat} (h : d ∈ digitBlock depth n) : d < 10 := by
  induction depth generalizing n with
  | zero =>
    rw [digitBlock, List.mem_singleton] at h
    exact h ▸ Nat.mod_lt _ (by decide)
  | succ depth ih => exact (List.mem_append.1 h).elim ih ih

theorem mem_digitsOf_lt {n d : Nat} (h : d ∈ digitsOf n) : d < 10 := by
  unfold digitsOf at h
  split at h
  · rw [List.mem_singleton] at h
    omega
  · exact mem_digitBlock_lt (List.dropWhile_sublist _ |>.subset h)

end InfixCalculator.Text
