import InfixCalculator.Proofs.Expression.Entered
import InfixCalculator.Proofs.Expression.Parsing

/-! # Places in an expression

Where in a text a rule can begin is a matter of the grammar: what stands before it is the beginning of
an expression, of which some groups, roots and right sides of powers are still open.

* `Rule.Begins`: the beginnings of an expression behind which a rule begins, with their open levels.
* `Rule.Begins.last`: they end by an operator or an opening, unless the rule is a repetition.
* `Opens`: the beginnings that end by the opening of one more level.
* `Cursor.Behind`: a cursor behind the beginning of a text.
* `Calculator.Entered.begins`: a reading enters rules only where they begin. -/

namespace InfixCalculator

/-! ### Beginnings of expressions -/

/-- **The places of a rule**: the text is the beginning of an expression behind which the rule
begins, inside as many open levels. -/
inductive Rule.Begins : Rule → List Char → ℕ → Prop
  | start : Begins .expression [] 0
  | firstTerm {before : List Char} {n : ℕ} (h : Begins .expression before n) : Begins .term before n
  | sum {before : List Char} {n : ℕ} (h : Begins .expression before n) (t : Tree .term) :
    Begins .sumTail (before ++ t.text) n
  | nextTerm {before : List Char} {n : ℕ} (h : Begins .sumTail before n) (s : Sign) :
    Begins .term (before ++ [s.char]) n
  | nextSum {before : List Char} {n : ℕ} (h : Begins .sumTail before n) (s : Sign) (t : Tree .term) :
    Begins .sumTail (before ++ ([s.char] ++ t.text)) n
  | firstFactor {before : List Char} {n : ℕ} (h : Begins .term before n) : Begins .exponent before n
  | product {before : List Char} {n : ℕ} (h : Begins .term before n) (t : Tree .exponent) :
    Begins .productTail (before ++ t.text) n
  | nextFactor {before : List Char} {n : ℕ} (h : Begins .productTail before n) (s : Scale) :
    Begins .exponent (before ++ [s.char]) n
  | nextProduct {before : List Char} {n : ℕ} (h : Begins .productTail before n) (s : Scale)
    (t : Tree .exponent) : Begins .productTail (before ++ ([s.char] ++ t.text)) n
  | base {before : List Char} {n : ℕ} (h : Begins .exponent before n) : Begins .primary before n
  | power {before : List Char} {n : ℕ} (h : Begins .exponent before n) (b : Tree .primary) :
    Begins .exponent (before ++ (b.text ++ ['^'])) (n + 1)
  | unsigned {before : List Char} {n : ℕ} (h : Begins .primary before n) : Begins .operand before n
  | signed {before : List Char} {n : ℕ} (h : Begins .primary before n) (s : Sign) :
    Begins .operand (before ++ [s.char]) n
  | root {before : List Char} {n : ℕ} (h : Begins .operand before n) :
    Begins .primary (before ++ [rootSign]) (n + 1)
  | group {before : List Char} {n : ℕ} (h : Begins .operand before n) :
    Begins .expression (before ++ [openParen]) (n + 1)

/-- The last character of the text opens a level inside `n` other ones. -/
inductive Opens : List Char → ℕ → Prop
  | power {before : List Char} {n : ℕ} (h : Rule.exponent.Begins before n) (b : Tree .primary) :
    Opens (before ++ b.text ++ ['^']) n
  | root {before : List Char} {n : ℕ} (h : Rule.operand.Begins before n) :
    Opens (before ++ [rootSign]) n
  | group {before : List Char} {n : ℕ} (h : Rule.operand.Begins before n) :
    Opens (before ++ [openParen]) n

/-- The operators and what opens a level. -/
def leadingChars : List Char := ['+', '-', '*', '/', '^', '(', '√']

theorem Sign.char_mem_leadingChars (s : Sign) : s.char ∈ leadingChars := by cases s <;> decide

theorem Scale.char_mem_leadingChars (s : Scale) : s.char ∈ leadingChars := by cases s <;> decide

/-- **What stands right before a rule**, unless it is a repetition: nothing, an operator or an
opening. -/
theorem Rule.Begins.last {r : Rule} {before : List Char} {n : ℕ} (h : r.Begins before n)
    (hsum : r ≠ .sumTail) (hproduct : r ≠ .productTail) :
    before = [] ∨ ∃ x ∈ leadingChars, before.getLast? = some x := by
  induction h with
  | start => exact .inl rfl
  | firstTerm _ ih | firstFactor _ ih | base _ ih | unsigned _ ih => exact ih nofun nofun
  | sum | nextSum => exact absurd rfl hsum
  | product | nextProduct => exact absurd rfl hproduct
  | nextTerm _ s | signed _ s =>
    exact .inr ⟨s.char, s.char_mem_leadingChars, List.getLast?_concat⟩
  | nextFactor _ s => exact .inr ⟨s.char, s.char_mem_leadingChars, List.getLast?_concat⟩
  | power _ b =>
    refine .inr ⟨'^', by decide, ?_⟩
    rw [← List.append_assoc]
    exact List.getLast?_concat
  | root => exact .inr ⟨rootSign, by decide, List.getLast?_concat⟩
  | group => exact .inr ⟨openParen, by decide, List.getLast?_concat⟩

theorem Opens.last {text : List Char} {n : ℕ} (h : Opens text n) :
    ∃ x ∈ ['(', '√', '^'], text.getLast? = some x := by
  cases h with
  | power _ b => exact ⟨'^', by decide, List.getLast?_concat⟩
  | root => exact ⟨rootSign, by decide, List.getLast?_concat⟩
  | group => exact ⟨openParen, by decide, List.getLast?_concat⟩

/-! ### Cursors -/

/-- The cursor stands in the text behind the given beginning, with `n` levels open of `limit`. -/
structure Cursor.Behind (limit : ℕ) (text before : List Char) (n : ℕ) (c : Cursor) : Prop where
  text_eq : c.text = text
  split : text = before ++ c.rest
  depth_eq : c.depth = n
  limit_eq : c.limit = some (limit : ℤ)
  depth_le : n ≤ limit

namespace Cursor.Behind

variable {limit n : ℕ} {text before xs : List Char} {c d : Cursor} {x : Char}

theorem start (limit : ℕ) (text : List Char) :
    (Cursor.start text (some (limit : ℤ))).Behind limit text [] 0 :=
  ⟨rfl, rfl, rfl, rfl, Nat.zero_le _⟩

theorem position (h : c.Behind limit text before n) : c.position = before.length := by
  have hlen := congrArg List.length h.split
  rw [List.length_append] at hlen
  rw [Cursor.position, h.text_eq]
  omega

theorem room (h : c.Behind limit text before n) : c.Room (limit - n) := by
  have hle := h.depth_le
  rw [Room, h.limit_eq, h.depth_eq, Nat.add_sub_cancel' hle]

theorem spans (h : c.Behind limit text before n) (hs : c.Spans xs d) :
    d.Behind limit text (before ++ xs) n := by
  refine ⟨?_, ?_, ?_, ?_, h.depth_le⟩
  · rw [hs.stop]
    exact h.text_eq
  · rw [h.split, hs.rest, List.append_assoc]
  · rw [hs.stop]
    exact h.depth_eq
  · rw [hs.stop]
    exact h.limit_eq

theorem accept (h : c.Behind limit text before n) {chars : List Char}
    (hx : c.accept? chars = some (x, d)) : d.Behind limit text (before ++ [x]) n :=
  h.spans (spans_of_accept? hx)

theorem enter (h : c.Behind limit text before n) (hd : c.enter? = .ok d) :
    d.Behind limit text before (n + 1) := by
  obtain ⟨hlimit, rfl⟩ := enter?_eq_ok_iff.mp hd
  have hlt := hlimit limit h.limit_eq
  rw [h.depth_eq] at hlt
  exact ⟨h.text_eq, h.split, congrArg (· + 1) h.depth_eq, h.limit_eq, by omega⟩

/-- A level is refused only if all are open. -/
theorem refuse (h : c.Behind limit text before n) {p : Problem} (hp : c.enter? = .error p) :
    n = limit ∧ p = .nestingTooDeep before.length limit := by
  obtain ⟨l, hl, hle, rfl⟩ := enter?_eq_error_iff.mp hp
  have hlimit := h.limit_eq.symm.trans hl
  rw [Option.some.injEq] at hlimit
  have hdepth := h.depth_le
  rw [h.depth_eq, ← hlimit] at hle
  rw [h.position, ← hlimit]
  exact ⟨by omega, rfl⟩

/-- What is left begins where the beginning ends. -/
theorem drop_length (h : c.Behind limit text before n) : text.drop before.length = c.rest := by
  rw [h.split, List.drop_left]

theorem take_length (h : c.Behind limit text before n) : text.take before.length = before := by
  rw [h.split, List.take_left]

theorem head?_rest (h : c.Behind limit text before n) : c.rest.head? = text[before.length]? := by
  rw [← h.drop_length, List.head?_drop]

theorem length_le (h : c.Behind limit text before n) : before.length ≤ text.length := by
  rw [h.split, List.length_append]
  exact Nat.le_add_right _ _

end Cursor.Behind

/-! ### Rules that are entered -/

namespace Calculator

variable {k : Calculator} {limit : ℕ} {text : List Char} {r : Rule} {v : Decimal} {c : Cursor}

/-- **A reading enters rules only where they begin**, with as many levels open. -/
theorem Entered.begins (h : k.Entered (.start text (some (limit : ℤ))) r v c) :
    ∃ before n, c.Behind limit text before n ∧ r.Begins before n := by
  induction h with
  | start => exact ⟨[], 0, Cursor.Behind.start limit text, .start⟩
  | firstTerm _ ih =>
    obtain ⟨before, n, hc, hr⟩ := ih
    exact ⟨before, n, hc, hr.firstTerm⟩
  | firstFactor _ ih =>
    obtain ⟨before, n, hc, hr⟩ := ih
    exact ⟨before, n, hc, hr.firstFactor⟩
  | base _ ih =>
    obtain ⟨before, n, hc, hr⟩ := ih
    exact ⟨before, n, hc, hr.base⟩
  | unsigned _ _ ih =>
    obtain ⟨before, n, hc, hr⟩ := ih
    exact ⟨before, n, hc, hr.unsigned⟩
  | @sum v _ _ _ _ hw ih =>
    obtain ⟨before, n, hc, hr⟩ := ih
    obtain ⟨t, hs, -⟩ := exists_tree (r := .term) (v := v) hc.room hw
    exact ⟨_, n, hc.spans hs, hr.sum t⟩
  | @product v _ _ _ _ hw ih =>
    obtain ⟨before, n, hc, hr⟩ := ih
    obtain ⟨t, hs, -⟩ := exists_tree (r := .exponent) (v := v) hc.room hw
    exact ⟨_, n, hc.spans hs, hr.product t⟩
  | nextTerm _ hop ih =>
    obtain ⟨before, n, hc, hr⟩ := ih
    obtain ⟨s, rfl⟩ := Sign.exists_of_mem (Cursor.rest_of_accept? hop).2.2
    exact ⟨_, n, hc.accept hop, hr.nextTerm s⟩
  | nextFactor _ hop ih =>
    obtain ⟨before, n, hc, hr⟩ := ih
    obtain ⟨s, rfl⟩ := Scale.exists_of_mem (Cursor.rest_of_accept? hop).2.2
    exact ⟨_, n, hc.accept hop, hr.nextFactor s⟩
  | signed _ hop ih =>
    obtain ⟨before, n, hc, hr⟩ := ih
    obtain ⟨s, rfl⟩ := Sign.exists_of_mem (Cursor.rest_of_accept? hop).2.2
    exact ⟨_, n, hc.accept hop, hr.signed s⟩
  | @nextSum v _ _ _ _ _ _ _ hop hw _ ih =>
    obtain ⟨before, n, hc, hr⟩ := ih
    obtain ⟨s, rfl⟩ := Sign.exists_of_mem (Cursor.rest_of_accept? hop).2.2
    have hd := hc.accept hop
    obtain ⟨t, hs, -⟩ := exists_tree (r := .term) (v := v) hd.room hw
    exact ⟨_, n, hc.spans ((Cursor.spans_of_accept? hop).trans hs), hr.nextSum s t⟩
  | @nextProduct v _ _ _ _ _ _ _ hop hw _ ih =>
    obtain ⟨before, n, hc, hr⟩ := ih
    obtain ⟨s, rfl⟩ := Scale.exists_of_mem (Cursor.rest_of_accept? hop).2.2
    have hd := hc.accept hop
    obtain ⟨t, hs, -⟩ := exists_tree (r := .exponent) (v := v) hd.room hw
    exact ⟨_, n, hc.spans ((Cursor.spans_of_accept? hop).trans hs), hr.nextProduct s t⟩
  | @power v _ _ _ _ _ _ _ hw hop he ih =>
    obtain ⟨before, n, hc, hr⟩ := ih
    obtain ⟨b, hs, -⟩ := exists_tree (r := .primary) (v := v) hc.room hw
    obtain rfl := List.mem_singleton.mp (Cursor.rest_of_accept? hop).2.2
    exact ⟨_, n + 1, (hc.spans (hs.trans (Cursor.spans_of_accept? hop))).enter he, hr.power b⟩
  | root _ hop he ih =>
    obtain ⟨before, n, hc, hr⟩ := ih
    obtain rfl := List.mem_singleton.mp (Cursor.rest_of_accept? hop).2.2
    exact ⟨_, n + 1, (hc.accept hop).enter he, hr.root⟩
  | group _ _ hop he ih =>
    obtain ⟨before, n, hc, hr⟩ := ih
    obtain rfl := List.mem_singleton.mp (Cursor.rest_of_accept? hop).2.2
    exact ⟨_, n + 1, (hc.accept hop).enter he, hr.group⟩

end Calculator

end InfixCalculator
