import InfixCalculator.Proofs.Expression.Online

/-! # The levels that a reading opens

A group, the operand of a root and the right side of a power are one level further inside. How many
levels are open around another one is a matter of what is read inside what, and of no count that a
cursor keeps.

* `Calculator.OpensAt`: the levels that a reading opens on its way: each with the number of levels that
  are open around it, and with its position, which is behind the character that opens it.
* `Calculator.opensAt_expression_iff` and its like: which levels the parts of a rule open.
* `Calculator.OpensAt.opener`: the character before the position of a level. -/

namespace InfixCalculator

namespace Calculator

open Cursor

/-- **The levels that a reading opens.** The reading of the rule at the cursor `c`, with the value `v`
before it, opens a level at the position `p`, while it has `n` other levels open. Levels that it has
left before do not count. -/
inductive OpensAt (k : Calculator) : Rule → Decimal → Cursor → ℕ → ℕ → Prop
  | firstTerm {v : Decimal} {c : Cursor} {n p : ℕ} (h : OpensAt k .term v c n p) :
    OpensAt k .expression v c n p
  | otherTerms {v w : Decimal} {c d : Cursor} {n p : ℕ} (hw : k.term c = .value w d)
    (h : OpensAt k .sumTail w d n p) : OpensAt k .expression v c n p
  | nextTerm {v : Decimal} {c d : Cursor} {op : Char} {n p : ℕ}
    (hop : c.accept? ['+', '-'] = some (op, d)) (h : OpensAt k .term v d n p) :
    OpensAt k .sumTail v c n p
  | moreTerms {v w s : Decimal} {c d e : Cursor} {op : Char} {n p : ℕ}
    (hop : c.accept? ['+', '-'] = some (op, d)) (hw : k.term d = .value w e)
    (hs : k.addOrSub op v w = .ok s) (h : OpensAt k .sumTail s e n p) : OpensAt k .sumTail v c n p
  | firstFactor {v : Decimal} {c : Cursor} {n p : ℕ} (h : OpensAt k .exponent v c n p) :
    OpensAt k .term v c n p
  | otherFactors {v w : Decimal} {c d : Cursor} {n p : ℕ} (hw : k.exponent c = .value w d)
    (h : OpensAt k .productTail w d n p) : OpensAt k .term v c n p
  | nextFactor {v : Decimal} {c d : Cursor} {op : Char} {n p : ℕ}
    (hop : c.accept? ['*', '/'] = some (op, d)) (h : OpensAt k .exponent v d n p) :
    OpensAt k .productTail v c n p
  | moreFactors {v w s : Decimal} {c d e : Cursor} {op : Char} {n p : ℕ}
    (hop : c.accept? ['*', '/'] = some (op, d)) (hw : k.exponent d = .value w e)
    (hs : k.mulOrDiv op c v w = .ok s) (h : OpensAt k .productTail s e n p) :
    OpensAt k .productTail v c n p
  | base {v : Decimal} {c : Cursor} {n p : ℕ} (h : OpensAt k .primary v c n p) :
    OpensAt k .exponent v c n p
  | power {v w : Decimal} {c d e : Cursor} {x : Char} (hw : k.primary c = .value w d)
    (hop : d.accept? ['^'] = some (x, e)) : OpensAt k .exponent v c 0 e.position
  | inPower {v w : Decimal} {c d e f : Cursor} {x : Char} {n p : ℕ} (hw : k.primary c = .value w d)
    (hop : d.accept? ['^'] = some (x, e)) (he : e.enter? = .ok f) (h : OpensAt k .exponent v f n p) :
    OpensAt k .exponent v c (n + 1) p
  | unsigned {v : Decimal} {c : Cursor} {n p : ℕ} (hop : c.accept? ['+', '-'] = none)
    (h : OpensAt k .operand v c n p) : OpensAt k .primary v c n p
  | signed {v : Decimal} {c d : Cursor} {x : Char} {n p : ℕ}
    (hop : c.accept? ['+', '-'] = some (x, d)) (h : OpensAt k .operand v d n p) :
    OpensAt k .primary v c n p
  | root {v : Decimal} {c d : Cursor} {x : Char} (hop : c.accept? [rootSign] = some (x, d)) :
    OpensAt k .operand v c 0 d.position
  | inRoot {v : Decimal} {c d e : Cursor} {x : Char} {n p : ℕ}
    (hop : c.accept? [rootSign] = some (x, d)) (he : d.enter? = .ok e)
    (h : OpensAt k .primary v e n p) : OpensAt k .operand v c (n + 1) p
  | group {v : Decimal} {c d : Cursor} {x : Char} (hroot : c.accept? [rootSign] = none)
    (hop : c.accept? [openParen] = some (x, d)) : OpensAt k .operand v c 0 d.position
  | inGroup {v : Decimal} {c d e : Cursor} {x : Char} {n p : ℕ}
    (hroot : c.accept? [rootSign] = none) (hop : c.accept? [openParen] = some (x, d))
    (he : d.enter? = .ok e) (h : OpensAt k .expression v e n p) : OpensAt k .operand v c (n + 1) p

/-- The characters that open a level. -/
def openers : List Char := [openParen, rootSign, '^']

/-- A level that starts at the cursor, or those that are opened inside it. -/
inductive Deeper (c : Cursor) (opens : Cursor → ℕ → ℕ → Prop) : ℕ → ℕ → Prop
  | here : Deeper c opens 0 c.position
  | inside {d : Cursor} {n p : ℕ} (he : c.enter? = .ok d) (h : opens d n p) :
    Deeper c opens (n + 1) p

variable {k : Calculator} {v w : Decimal} {c d e f : Cursor} {x op : Char} {n p : ℕ}

theorem deeper_iff {opens : Cursor → ℕ → ℕ → Prop} (he : c.enter? = .ok d) :
    Deeper c opens n p ↔ (n = 0 ∧ p = c.position) ∨ ∃ m, n = m + 1 ∧ opens d m p := by
  constructor
  · rintro (_ | ⟨he', h⟩)
    · exact .inl ⟨rfl, rfl⟩
    · rw [he] at he'
      cases he'
      exact .inr ⟨_, rfl, h⟩
  · rintro (⟨rfl, rfl⟩ | ⟨m, rfl, h⟩)
    · exact .here
    · exact .inside he h

/-! ### The parts of a rule -/

theorem opensAt_expression_iff : k.OpensAt .expression v c n p ↔
    k.OpensAt .term v c n p ∨ ∃ w d, k.term c = .value w d ∧ k.OpensAt .sumTail w d n p := by
  constructor
  · intro h
    cases h with
    | firstTerm h => exact .inl h
    | otherTerms hw h => exact .inr ⟨_, _, hw, h⟩
  · rintro (h | ⟨w, d, hw, h⟩)
    · exact .firstTerm h
    · exact .otherTerms hw h

theorem opensAt_sumTail_iff : k.OpensAt .sumTail v c n p ↔
    ∃ op d, c.accept? ['+', '-'] = some (op, d) ∧ (k.OpensAt .term v d n p ∨
      ∃ w s e, k.term d = .value w e ∧ k.addOrSub op v w = .ok s ∧ k.OpensAt .sumTail s e n p) := by
  constructor
  · intro h
    cases h with
    | nextTerm hop h => exact ⟨_, _, hop, .inl h⟩
    | moreTerms hop hw hs h => exact ⟨_, _, hop, .inr ⟨_, _, _, hw, hs, h⟩⟩
  · rintro ⟨op, d, hop, h | ⟨w, s, e, hw, hs, h⟩⟩
    · exact .nextTerm hop h
    · exact .moreTerms hop hw hs h

theorem opensAt_term_iff : k.OpensAt .term v c n p ↔
    k.OpensAt .exponent v c n p ∨
      ∃ w d, k.exponent c = .value w d ∧ k.OpensAt .productTail w d n p := by
  constructor
  · intro h
    cases h with
    | firstFactor h => exact .inl h
    | otherFactors hw h => exact .inr ⟨_, _, hw, h⟩
  · rintro (h | ⟨w, d, hw, h⟩)
    · exact .firstFactor h
    · exact .otherFactors hw h

theorem opensAt_productTail_iff : k.OpensAt .productTail v c n p ↔
    ∃ op d, c.accept? ['*', '/'] = some (op, d) ∧ (k.OpensAt .exponent v d n p ∨
      ∃ w s e, k.exponent d = .value w e ∧ k.mulOrDiv op c v w = .ok s ∧
        k.OpensAt .productTail s e n p) := by
  constructor
  · intro h
    cases h with
    | nextFactor hop h => exact ⟨_, _, hop, .inl h⟩
    | moreFactors hop hw hs h => exact ⟨_, _, hop, .inr ⟨_, _, _, hw, hs, h⟩⟩
  · rintro ⟨op, d, hop, h | ⟨w, s, e, hw, hs, h⟩⟩
    · exact .nextFactor hop h
    · exact .moreFactors hop hw hs h

theorem opensAt_exponent_iff : k.OpensAt .exponent v c n p ↔
    k.OpensAt .primary v c n p ∨ ∃ w d, k.primary c = .value w d ∧
      ∃ x e, d.accept? ['^'] = some (x, e) ∧ Deeper e (k.OpensAt .exponent v) n p := by
  constructor
  · intro h
    cases h with
    | base h => exact .inl h
    | power hw hop => exact .inr ⟨_, _, hw, _, _, hop, .here⟩
    | inPower hw hop he h => exact .inr ⟨_, _, hw, _, _, hop, .inside he h⟩
  · rintro (h | ⟨w, d, hw, x, e, hop, _ | ⟨he, h⟩⟩)
    · exact .base h
    · exact .power hw hop
    · exact .inPower hw hop he h

theorem opensAt_primary_iff : k.OpensAt .primary v c n p ↔
    (c.accept? ['+', '-'] = none ∧ k.OpensAt .operand v c n p) ∨
      ∃ x d, c.accept? ['+', '-'] = some (x, d) ∧ k.OpensAt .operand v d n p := by
  constructor
  · intro h
    cases h with
    | unsigned hop h => exact .inl ⟨hop, h⟩
    | signed hop h => exact .inr ⟨_, _, hop, h⟩
  · rintro (⟨hop, h⟩ | ⟨x, d, hop, h⟩)
    · exact .unsigned hop h
    · exact .signed hop h

theorem opensAt_operand_iff : k.OpensAt .operand v c n p ↔
    (∃ x d, c.accept? [rootSign] = some (x, d) ∧ Deeper d (k.OpensAt .primary v) n p) ∨
      c.accept? [rootSign] = none ∧
        ∃ x d, c.accept? [openParen] = some (x, d) ∧ Deeper d (k.OpensAt .expression v) n p := by
  constructor
  · intro h
    cases h with
    | root hop => exact .inl ⟨_, _, hop, .here⟩
    | inRoot hop he h => exact .inl ⟨_, _, hop, .inside he h⟩
    | group hroot hop => exact .inr ⟨hroot, _, _, hop, .here⟩
    | inGroup hroot hop he h => exact .inr ⟨hroot, _, _, hop, .inside he h⟩
  · rintro (⟨x, d, hop, _ | ⟨he, h⟩⟩ | ⟨hroot, x, d, hop, _ | ⟨he, h⟩⟩)
    · exact .root hop
    · exact .inRoot hop he h
    · exact .group hroot hop
    · exact .inGroup hroot hop he h

/-! ### The characters that open a level -/

/-- Behind a character that opens a level. -/
theorem opener_of_accept? {chars : List Char} (h : c.accept? chars = some (x, d))
    (hchars : chars ⊆ openers) : 0 < d.position ∧ ∃ y ∈ openers, c.text[d.position - 1]? = some y := by
  obtain ⟨hx, hhead, -⟩ := accept?_eq_some_iff.mp h
  have hposition := (spans_of_accept? h).position
  rw [List.length_singleton] at hposition
  refine ⟨by omega, x, hchars hx, ?_⟩
  rwa [hposition, Nat.add_sub_cancel, ← List.head?_drop, ← rest_eq_drop]

/-- The text stays the same along a reading. -/
theorem text_of_read {r : Rule} (h : k.read r v c = .value w d) : d.text = c.text := by
  obtain ⟨xs, hxs⟩ := k.online_read r v c
  have hstop := hxs.spans.stop
  rw [h, Outcome.stop] at hstop
  rw [hstop, text_advance]

/-- **A level starts behind a character that opens one.** -/
theorem OpensAt.opener {r : Rule} (h : k.OpensAt r v c n p) :
    0 < p ∧ ∃ y ∈ openers, c.text[p - 1]? = some y := by
  induction h with
  | firstTerm _ ih | firstFactor _ ih | base _ ih | unsigned _ _ ih => exact ih
  | otherTerms hw _ ih => rwa [text_of_read (r := .term) (v := v) hw] at ih
  | otherFactors hw _ ih => rwa [text_of_read (r := .exponent) (v := v) hw] at ih
  | nextTerm hop _ ih | nextFactor hop _ ih | signed hop _ ih => rwa [text_of_accept? hop] at ih
  | moreTerms hop hw _ _ ih =>
    rwa [text_of_read (r := .term) (v := v) hw, text_of_accept? hop] at ih
  | moreFactors hop hw _ _ ih =>
    rwa [text_of_read (r := .exponent) (v := v) hw, text_of_accept? hop] at ih
  | power hw hop =>
    rw [← text_of_read (r := .primary) (v := v) hw]
    exact opener_of_accept? hop (by decide)
  | inPower hw hop he _ ih =>
    rwa [text_of_enter? he, text_of_accept? hop, text_of_read (r := .primary) (v := v) hw] at ih
  | root hop | group _ hop => exact opener_of_accept? hop (by decide)
  | inRoot hop he _ ih | inGroup _ hop he _ ih => rwa [text_of_enter? he, text_of_accept? hop] at ih

end Calculator

end InfixCalculator
