import InfixCalculator.Proofs.Expression.Online

/-! # Calls

To read a rule is to read other rules on the way.

* `Cursor.Reaches`: a cursor further on in the same text, with more levels open within the limit.
* `Reading`, `Calculator.outcome`: the reading of a rule at a cursor, and what it comes to.
* `Calculator.Calls`: the readings that a reading calls; `Calculator.Calls.reaches` says where they
  start.
* `Calculator.Calls.left_lt_or_level_lt`: a called reading has fewer characters left, or as many and
  a rule of a lower level. -/

namespace InfixCalculator

/-! ### Cursors further on -/

namespace Cursor

variable {c d e : Cursor} {m n : ℕ}

/-- **The cursor `d` is reached** from `c` by moves forward that leave `n` more levels open. They
never exceed the limit. -/
structure Reaches (c : Cursor) (n : ℕ) (d : Cursor) : Prop where
  text : d.text = c.text
  limit : d.limit = c.limit
  position : c.position ≤ d.position
  depth : d.depth = c.depth + n
  within : ∀ l, c.limit = some l → (c.depth : ℤ) ≤ l → (d.depth : ℤ) ≤ l

theorem Reaches.trans (h : c.Reaches m d) (h' : d.Reaches n e) : c.Reaches (m + n) e where
  text := h'.text.trans h.text
  limit := h'.limit.trans h.limit
  position := h.position.trans h'.position
  depth := by rw [h'.depth, h.depth, Nat.add_assoc]
  within l hl hc := h'.within l (h.limit.trans hl) (h.within l hl hc)

theorem reaches_advance (n : ℕ) (c : Cursor) : c.Reaches 0 (c.advance n) where
  text := rfl
  limit := rfl
  position := c.position_le_advance n
  depth := rfl
  within _ _ hc := hc

theorem reaches_self (c : Cursor) : c.Reaches 0 c where
  text := rfl
  limit := rfl
  position := Nat.le_refl _
  depth := rfl
  within _ _ hc := hc

theorem reaches_of_accept? {chars : List Char} {x : Char} (h : c.accept? chars = some (x, d)) :
    c.Reaches 0 d := by
  rw [(rest_of_accept? h).2.1]
  exact c.reaches_advance 1

/-- A level is opened only below the limit. -/
theorem reaches_of_enter? (h : c.enter? = .ok d) : c.Reaches 1 d := by
  obtain ⟨hroom, rfl⟩ := enter?_eq_ok_iff.mp h
  refine ⟨rfl, rfl, Nat.le_refl _, rfl, fun l hl _ => ?_⟩
  have hless := hroom l hl
  rw [depth_enter]
  omega

/-- Positions grow as the number of characters left falls. -/
theorem Reaches.position_add_le (h : c.Reaches m d) (hleft : d.left + n ≤ c.left) :
    c.position + n ≤ d.position := by
  have hc := c.position_add_left
  have hd := d.position_add_left
  rw [h.text] at hd
  omega

end Cursor

/-! ### Readings -/

/-- The reading of a rule at a cursor. Only repetitions look at the value before it. -/
structure Reading where
  rule : Rule
  before : Decimal
  start : Cursor

/-- The level of a rule in the grammar. A repetition has none, since it is read behind something. -/
def Rule.level : Rule → ℕ
  | expression => 4
  | term => 3
  | exponent => 2
  | primary => 1
  | operand => 0
  | sumTail => 0
  | productTail => 0

theorem Rule.level_le (r : Rule) : r.level ≤ 4 := by
  cases r <;> decide

/-- The rules that continue from the value of what stands before them. -/
def Rule.repetitions : List Rule := [sumTail, productTail]

/-- A bound for the number of readings inside each other. -/
def Reading.weight (x : Reading) : ℕ := 5 * x.start.left + x.rule.level

namespace Calculator

open Cursor

/-- What a reading comes to. -/
def outcome (k : Calculator) (x : Reading) : Outcome := k.read x.rule x.before x.start

/-- **The readings that a reading calls**, each with the number of levels that are opened for it. The
reading of a repetition calls that of its own continuation. -/
inductive Calls (k : Calculator) : Reading → ℕ → Reading → Prop
  | firstTerm {v : Decimal} {c : Cursor} : Calls k ⟨.expression, v, c⟩ 0 ⟨.term, v, c⟩
  | sum {v w : Decimal} {c d : Cursor} (hw : k.term c = .value w d) :
    Calls k ⟨.expression, v, c⟩ 0 ⟨.sumTail, w, d⟩
  | nextTerm {v : Decimal} {c d : Cursor} {op : Char} (hop : c.accept? ['+', '-'] = some (op, d)) :
    Calls k ⟨.sumTail, v, c⟩ 0 ⟨.term, v, d⟩
  | nextSum {v w s : Decimal} {c d e : Cursor} {op : Char}
    (hop : c.accept? ['+', '-'] = some (op, d)) (hw : k.term d = .value w e)
    (hs : k.addOrSub op v w = .ok s) : Calls k ⟨.sumTail, v, c⟩ 0 ⟨.sumTail, s, e⟩
  | firstFactor {v : Decimal} {c : Cursor} : Calls k ⟨.term, v, c⟩ 0 ⟨.exponent, v, c⟩
  | product {v w : Decimal} {c d : Cursor} (hw : k.exponent c = .value w d) :
    Calls k ⟨.term, v, c⟩ 0 ⟨.productTail, w, d⟩
  | nextFactor {v : Decimal} {c d : Cursor} {op : Char}
    (hop : c.accept? ['*', '/'] = some (op, d)) : Calls k ⟨.productTail, v, c⟩ 0 ⟨.exponent, v, d⟩
  | nextProduct {v w s : Decimal} {c d e : Cursor} {op : Char}
    (hop : c.accept? ['*', '/'] = some (op, d)) (hw : k.exponent d = .value w e)
    (hs : k.mulOrDiv op c v w = .ok s) : Calls k ⟨.productTail, v, c⟩ 0 ⟨.productTail, s, e⟩
  | base {v : Decimal} {c : Cursor} : Calls k ⟨.exponent, v, c⟩ 0 ⟨.primary, v, c⟩
  | power {v w : Decimal} {c d e f : Cursor} {x : Char} (hw : k.primary c = .value w d)
    (hop : d.accept? ['^'] = some (x, e)) (he : e.enter? = .ok f) :
    Calls k ⟨.exponent, v, c⟩ 1 ⟨.exponent, v, f⟩
  | unsigned {v : Decimal} {c : Cursor} (hop : c.accept? ['+', '-'] = none) :
    Calls k ⟨.primary, v, c⟩ 0 ⟨.operand, v, c⟩
  | signed {v : Decimal} {c d : Cursor} {x : Char} (hop : c.accept? ['+', '-'] = some (x, d)) :
    Calls k ⟨.primary, v, c⟩ 0 ⟨.operand, v, d⟩
  | root {v : Decimal} {c d e : Cursor} {x : Char} (hop : c.accept? [rootSign] = some (x, d))
    (he : d.enter? = .ok e) : Calls k ⟨.operand, v, c⟩ 1 ⟨.primary, v, e⟩
  | group {v : Decimal} {c d e : Cursor} {x : Char} (hroot : c.accept? [rootSign] = none)
    (hop : c.accept? [openParen] = some (x, d)) (he : d.enter? = .ok e) :
    Calls k ⟨.operand, v, c⟩ 1 ⟨.expression, v, e⟩

variable {k : Calculator} {x y : Reading} {v w : Decimal} {c d : Cursor} {n : ℕ}

/-- **A reading stops further on**, with a value or a fault, and with all its levels closed. -/
theorem reaches_stop (k : Calculator) (r : Rule) (v : Decimal) (c : Cursor) :
    c.Reaches 0 (k.read r v c).stop := by
  obtain ⟨xs, h⟩ := k.online_read r v c
  rw [h.spans.stop]
  exact c.reaches_advance xs.length

theorem reaches_of_value {r : Rule} (h : k.read r v c = .value w d) : c.Reaches 0 d := by
  have hstop := k.reaches_stop r v c
  rwa [h] at hstop

theorem reaches_of_term (h : k.term c = .value w d) : c.Reaches 0 d :=
  reaches_of_value (r := .term) (v := w) h

theorem reaches_of_exponent (h : k.exponent c = .value w d) : c.Reaches 0 d :=
  reaches_of_value (r := .exponent) (v := w) h

theorem reaches_of_primary (h : k.primary c = .value w d) : c.Reaches 0 d :=
  reaches_of_value (r := .primary) (v := w) h

/-- **A called reading starts further on**, with the levels open that were opened for it. -/
theorem Calls.reaches (h : k.Calls x n y) : x.start.Reaches n y.start := by
  cases h with
  | firstTerm | firstFactor | base | unsigned _ => exact reaches_self _
  | sum hw => exact reaches_of_term hw
  | product hw => exact reaches_of_exponent hw
  | nextTerm hop | nextFactor hop | signed hop => exact reaches_of_accept? hop
  | nextSum hop hw _ => exact (reaches_of_accept? hop).trans (reaches_of_term hw)
  | nextProduct hop hw _ => exact (reaches_of_accept? hop).trans (reaches_of_exponent hw)
  | power hw hop he =>
    exact ((reaches_of_primary hw).trans (reaches_of_accept? hop)).trans (reaches_of_enter? he)
  | root hop he | group _ hop he => exact (reaches_of_accept? hop).trans (reaches_of_enter? he)

/-- **A called reading has less to do**: fewer characters are left, or as many and its rule has a
lower level. -/
theorem Calls.left_lt_or_level_lt (h : k.Calls x n y) : y.start.left < x.start.left ∨
    y.start.left = x.start.left ∧ y.rule.level < x.rule.level := by
  cases h with
  | firstTerm | firstFactor | base | unsigned _ => exact .inr ⟨rfl, Nat.lt_succ_self _⟩
  | sum hw => exact .inl (left_lt_of_term hw)
  | product hw => exact .inl (left_lt_of_exponent hw)
  | nextTerm hop | nextFactor hop | signed hop => exact .inl (left_of_accept? hop)
  | nextSum hop hw _ => exact .inl ((left_lt_of_term hw).trans (left_of_accept? hop))
  | nextProduct hop hw _ => exact .inl ((left_lt_of_exponent hw).trans (left_of_accept? hop))
  | power hw hop he =>
    have hleft := (left_of_accept? hop).trans (left_lt_of_primary hw)
    exact .inl (by rwa [left_of_enter? he])
  | root hop he | group _ hop he => exact .inl (by rw [left_of_enter? he]; exact left_of_accept? hop)

theorem Calls.weight_lt (h : k.Calls x n y) : y.weight < x.weight := by
  have hlevel := y.rule.level_le
  unfold Reading.weight
  rcases h.left_lt_or_level_lt with hleft | ⟨hleft, hless⟩
  · omega
  · omega

/-- **An operator and its right side** are at least two characters. -/
theorem Calls.left_add_two_le (h : k.Calls x n y) (hrule : y.rule = x.rule)
    (hr : x.rule ∈ Rule.repetitions) : y.start.left + 2 ≤ x.start.left := by
  cases h with
  | nextSum hop hw _ =>
    have h1 := left_of_accept? hop
    have h2 := left_lt_of_term hw
    dsimp only
    omega
  | nextProduct hop hw _ =>
    have h1 := left_of_accept? hop
    have h2 := left_lt_of_exponent hw
    dsimp only
    omega
  | power =>
    have hnot : Rule.exponent ∉ Rule.repetitions := by decide
    exact absurd hr hnot
  | _ => cases hrule

end Calculator

end InfixCalculator
