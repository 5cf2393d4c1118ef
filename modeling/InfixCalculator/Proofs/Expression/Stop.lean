import InfixCalculator.Proofs.Expression.Parsing

/-! # Where a reading stops

A value is as long as the text allows. No operator follows it that its rule would have read, and a
digit or a point follows it only if it ends by a group.

* `Rule.readsOn`: the operators that a rule reads.
* `Calculator.accept?_readsOn`: none of them follows a value that the rule has read.
* `Tree.last_eq_closeParen`: a tree ends by a group where a digit or a point follows it. -/

namespace InfixCalculator

/-! ### Operators -/

namespace Cursor

variable {c : Cursor} {xs ys : List Char}

theorem accept?_nil (c : Cursor) : c.accept? [] = none :=
  accept?_eq_none_iff.mpr fun _ _ => List.not_mem_nil

theorem accept?_append_eq_none_iff :
    c.accept? (xs ++ ys) = none ↔ c.accept? xs = none ∧ c.accept? ys = none := by
  simp only [accept?_eq_none_iff, List.mem_append, not_or, forall_and]

theorem accept?_leave_eq_none_iff : c.leave.accept? xs = none ↔ c.accept? xs = none := by
  simp only [accept?_eq_none_iff]
  exact Iff.rfl

end Cursor

/-- The operators that a rule reads, where its levels are closed. -/
def Rule.readsOn : Rule → List Char
  | .expression | .sumTail => ['+', '-'] ++ (['*', '/'] ++ ['^'])
  | .term | .productTail => ['*', '/'] ++ ['^']
  | .exponent => ['^']
  | .primary | .operand => []

/-- The operators that a repetition leaves to what stands before it. -/
def Rule.presumes : Rule → List Char
  | .sumTail => ['*', '/'] ++ ['^']
  | .productTail => ['^']
  | _ => []

namespace Calculator

open Outcome

variable {k : Calculator} {r : Rule} {v w : Decimal} {c d : Cursor}

theorem hereditary_stops (k : Calculator) :
    k.Hereditary fun r v c => c.accept? r.presumes = none →
      ∀ w d, k.read r v c = .value w d → d.accept? r.readsOn = none where
  expression v c hterm htail := by
    intro hbefore w d h
    rw [read, expression_eq, andThen_eq_value_iff] at h
    obtain ⟨x, e, h1, h2⟩ := h
    exact htail x e h1 (hterm hbefore x e h1) w d h2
  term v c hexponent htail := by
    intro hbefore w d h
    rw [read, term_eq, andThen_eq_value_iff] at h
    obtain ⟨x, e, h1, h2⟩ := h
    exact htail x e h1 (hexponent hbefore x e h1) w d h2
  sumTail v c hterm htail := by
    intro hbefore w d h
    rw [read, sumTail_eq] at h
    cases hop : c.accept? ['+', '-'] with
    | none =>
      rw [hop] at h
      cases h
      exact Cursor.accept?_append_eq_none_iff.mpr ⟨hop, hbefore⟩
    | some accepted =>
      obtain ⟨op, e⟩ := accepted
      rw [hop] at h
      simp only [andThen_eq_value_iff, of_eq_value_iff] at h
      obtain ⟨x, _, h1, y, f, ⟨-, rfl⟩, h2⟩ := h
      exact htail op e x f y hop h1 (hterm op e hop e.accept?_nil x f h1) w d h2
  productTail v c hexponent htail := by
    intro hbefore w d h
    rw [read, productTail_eq] at h
    cases hop : c.accept? ['*', '/'] with
    | none =>
      rw [hop] at h
      cases h
      exact Cursor.accept?_append_eq_none_iff.mpr ⟨hop, hbefore⟩
    | some accepted =>
      obtain ⟨op, e⟩ := accepted
      rw [hop] at h
      simp only [andThen_eq_value_iff, of_eq_value_iff] at h
      obtain ⟨x, _, h1, y, f, ⟨-, rfl⟩, h2⟩ := h
      exact htail op e x f y hop h1 (hexponent op e hop e.accept?_nil x f h1) w d h2
  exponent v c _ hpower := by
    intro _ w d h
    rw [read, exponent_eq_within, andThen_eq_value_iff] at h
    obtain ⟨x, e, h1, h2⟩ := h
    cases hop : e.accept? ['^'] with
    | none =>
      rw [hop] at h2
      cases h2
      exact hop
    | some accepted =>
      obtain ⟨op, f⟩ := accepted
      rw [hop] at h2
      simp only [andThen_eq_value_iff, Cursor.within_eq_value_iff, of_eq_value_iff] at h2
      obtain ⟨y, _, ⟨g, i, he, h2, rfl⟩, -, rfl⟩ := h2
      have hstop := hpower x e op f g h1 hop he g.accept?_nil y i h2
      exact Cursor.accept?_leave_eq_none_iff.mpr hstop
  primary _ _ _ _ := by
    intro _ w d _
    exact d.accept?_nil
  operand _ _ _ _ := by
    intro _ w d _
    exact d.accept?_nil

/-- **No operator follows a value** that its rule would have read. -/
theorem accept?_readsOn (hbefore : c.accept? r.presumes = none) (h : k.read r v c = .value w d) :
    d.accept? r.readsOn = none :=
  (hereditary_stops k).read r v c hbefore w d h

end Calculator

/-! ### Digits and points -/

namespace Tree

variable {r : Rule} {after : List Char}

/-- **A tree ends by a group** where a digit or a point follows it. -/
theorem last_eq_closeParen (t : Tree r) (h : t.Maximal after) {x y : Char}
    (hx : t.text.getLast? = some x) (hy : after.head? = some y) (hnumber : isNumberChar y = true) :
    x = closeParen := by
  induction t generalizing after x with
  | expression first more ih1 ih2 | term first more ih1 ih2 =>
    obtain ⟨h1, h2⟩ := h
    rw [text, List.getLast?_append, Option.or_eq_some_iff] at hx
    rcases hx with hx | ⟨hnone, hx⟩
    · exact ih2 h2 hx hy
    · rw [List.getLast?_eq_none_iff.mp hnone] at h1
      exact ih1 h1 hx hy
  | noSummand | noFactor => cases hx
  | summand s t more ih1 ih2 | factor s t more ih1 ih2 =>
    obtain ⟨h1, h2⟩ := h
    have hne := t.text_ne_nil (by decide) (by decide)
    rw [text, List.getLast?_cons_of_ne_nil (List.append_ne_nil_of_left_ne_nil hne _),
      List.getLast?_append, Option.or_eq_some_iff] at hx
    rcases hx with hx | ⟨hnone, hx⟩
    · exact ih2 h2 hx hy
    · rw [List.getLast?_eq_none_iff.mp hnone] at h1
      exact ih1 h1 hx hy
  | base p ih | unsigned o ih => exact ih h hx hy
  | power p e ih1 ih2 =>
    rw [text, List.getLast?_append_cons,
      List.getLast?_cons_of_ne_nil (e.text_ne_nil (by decide) (by decide))] at hx
    exact ih2 h.2 hx hy
  | signed s o ih =>
    rw [text, List.getLast?_cons_of_ne_nil (o.text_ne_nil (by decide) (by decide))] at hx
    exact ih h hx hy
  | root p ih =>
    rw [text, List.getLast?_cons_of_ne_nil (p.text_ne_nil (by decide) (by decide))] at hx
    exact ih h hx hy
  | group e =>
    rw [text, ← List.cons_append, List.getLast?_concat, Option.some.injEq] at hx
    exact hx.symm
  | number l =>
    rw [h y hy] at hnumber
    cases hnumber

end Tree

end InfixCalculator
