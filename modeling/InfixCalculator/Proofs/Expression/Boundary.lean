import InfixCalculator.Proofs.Expression.Entered
import InfixCalculator.Proofs.Expression.Lexemes

/-! # A reading stands between lexemes

The rules look at one character at a time, or at a run of digits and points; they never see the
tokens. Still they go from token to token.

* `Cursor.Between`: the lexemes of the text are some behind the cursor and those ahead of it.
* `Calculator.between_stop`: a reading that begins between lexemes stops between lexemes.
* `Calculator.Stands`: the cursors of a reading; `Calculator.Stands.between`: all of them are between
  lexemes. -/

namespace InfixCalculator

/-! ### Cursors between lexemes -/

namespace Cursor

variable {text : List Char} {c d : Cursor}

/-- The lexemes of the text are some behind the cursor and those ahead of it. -/
def Between (text : List Char) (c : Cursor) : Prop :=
  c.text = text ∧ ∃ done, lexemes text = done ++ lexemes c.rest ∧ done.flatten.length = c.position

theorem between_start (text : List Char) (limit : Option ℤ) : (start text limit).Between text :=
  ⟨rfl, [], rfl, (Nat.sub_self _).symm⟩

/-- Behind the lexeme ahead is the next place between lexemes. -/
theorem Between.advance (h : c.Between text) {l : List Char}
    (hl : lexemes c.rest = l :: lexemes (c.rest.drop l.length)) (hle : l.length ≤ c.left) :
    (c.advance l.length).Between text := by
  obtain ⟨htext, done, hlexemes, hposition⟩ := h
  refine ⟨htext, done ++ [l], ?_, ?_⟩
  · rw [hlexemes, hl, rest_advance, List.append_assoc, List.singleton_append]
  · rw [position_advance hle, ← hposition, List.flatten_append, List.length_append,
      List.flatten_singleton]

theorem Between.accept (h : c.Between text) {chars : List Char} {x : Char}
    (hop : c.accept? chars = some (x, d)) (hchars : chars ⊆ punctuation) :
    d.Between text := by
  obtain ⟨hrest, rfl, hx⟩ := rest_of_accept? hop
  have hleft := left_of_accept? hop
  refine h.advance (l := [x]) ?_ (by rw [List.length_singleton]; omega)
  rw [hrest, lexemes_cons (hchars hx)]
  rfl

/-- A literal is the lexeme ahead. -/
theorem lexemes_literal (h : c.literal ≠ []) :
    lexemes c.rest = c.literal :: lexemes (c.rest.drop c.literal.length) :=
  calc lexemes c.rest = lexemes (c.literal ++ (c.advance c.literal.length).rest) := by
        rw [literal_append_rest]
    _ = c.literal :: lexemes (c.advance c.literal.length).rest :=
        lexemes_run h (fun _ => isNumberChar_of_mem_literal) fun _ => isNumberChar_behind_literal
    _ = _ := by rw [rest_advance]

/-- Where a number is read, the literal is not empty, and the cursor moves behind it. -/
theorem of_number_eq_value {v : Decimal} (h : c.number = .value v d) :
    c.literal ≠ [] ∧ d = c.advance c.literal.length := by
  unfold number at h
  dsimp only at h
  split_ifs at h with hne
  · cases h
  · cases h
  · cases h
  · cases hv : Decimal.ofPlain? c.literal with
    | none => rw [hv] at h; cases h
    | some w => rw [hv] at h; cases h; exact ⟨hne, rfl⟩

theorem Between.literal (h : c.Between text) (hne : c.literal ≠ []) :
    (c.advance c.literal.length).Between text :=
  h.advance (lexemes_literal hne) c.length_literal_le

theorem Between.enter (h : c.Between text) (hd : c.enter? = .ok d) : d.Between text := by
  obtain ⟨-, rfl⟩ := enter?_eq_ok_iff.mp hd
  exact h

theorem Between.leave (h : c.Between text) : c.leave.Between text := h

end Cursor

/-! ### Where readings stop -/

namespace Outcome

variable {text : List Char} {o : Outcome} {c : Cursor} {P : Cursor → Prop}

theorem stop_andThen {next : Decimal → Cursor → Outcome} (h : P o.stop)
    (hn : ∀ w d, o = .value w d → P d → P (next w d).stop) : P (o.andThen next).stop := by
  cases o with
  | value w d => exact hn w d rfl h
  | fault f d => exact h

theorem stop_of (result : Except Fault Decimal) (c : Cursor) : (of result c).stop = c := by
  cases result <;> rfl

theorem stop_map (o : Outcome) (f : Decimal → Decimal) : (o.map f).stop = o.stop := by
  cases o <;> rfl

theorem between_within {inside : Cursor → Outcome} (h : c.Between text)
    (hinside : ∀ d, c.enter? = .ok d → d.Between text → (inside d).stop.Between text) :
    (c.within inside).stop.Between text := by
  unfold Cursor.within
  cases hd : c.enter? with
  | error p => exact h
  | ok d =>
    have hstop := hinside d hd (h.enter hd)
    dsimp only
    cases ho : inside d with
    | value w e => rw [ho] at hstop; exact hstop.leave
    | fault f e => rw [ho] at hstop; exact hstop.leave

end Outcome

namespace Calculator

open Outcome

variable {k : Calculator} {r : Rule} {v w : Decimal} {c d start : Cursor} {text : List Char}

theorem between_number (h : c.Between text) : c.number.stop.Between text := by
  unfold Cursor.number
  dsimp only
  split_ifs with hne
  · exact h
  · exact h
  · exact h
  · split
    · exact h.literal hne
    · exact h.literal hne

theorem hereditary_between (k : Calculator) (text : List Char) :
    k.Hereditary fun r v c => c.Between text → (k.read r v c).stop.Between text where
  expression v c hterm htail := by
    intro h
    rw [read, expression_eq]
    exact stop_andThen (hterm h) fun w d hd => htail w d hd
  term v c hexponent htail := by
    intro h
    rw [read, term_eq]
    exact stop_andThen (hexponent h) fun w d hd => htail w d hd
  sumTail v c hterm htail := by
    intro h
    rw [read, sumTail_eq]
    cases hop : c.accept? ['+', '-'] with
    | none => exact h
    | some accepted =>
      obtain ⟨op, d⟩ := accepted
      refine stop_andThen (hterm op d hop (h.accept hop (by decide))) fun w e he hbetween => ?_
      refine stop_andThen (by rwa [stop_of]) fun s f hf hbetween => ?_
      rw [(of_eq_value_iff.mp hf).2] at hbetween ⊢
      exact htail op d w e s hop he hbetween
  productTail v c hexponent htail := by
    intro h
    rw [read, productTail_eq]
    cases hop : c.accept? ['*', '/'] with
    | none => exact h
    | some accepted =>
      obtain ⟨op, d⟩ := accepted
      refine stop_andThen (hexponent op d hop (h.accept hop (by decide))) fun w e he hbetween => ?_
      refine stop_andThen (by rwa [stop_of]) fun s f hf hbetween => ?_
      rw [(of_eq_value_iff.mp hf).2] at hbetween ⊢
      exact htail op d w e s hop he hbetween
  exponent v c hprimary hpower := by
    intro h
    rw [read, exponent_eq_within]
    refine stop_andThen (hprimary h) fun w d hd hbetween => ?_
    cases hop : d.accept? ['^'] with
    | none => exact hbetween
    | some accepted =>
      obtain ⟨x, e⟩ := accepted
      refine stop_andThen (between_within (hbetween.accept hop (by decide)) fun f hf =>
        hpower w d x e f hd hop hf) fun y g _ hg => ?_
      rwa [stop_of]
  primary v c hoperand hsigned := by
    intro h
    rw [read, primary_eq]
    cases hop : c.accept? ['+', '-'] with
    | none => exact hoperand h
    | some accepted =>
      obtain ⟨x, d⟩ := accepted
      dsimp only
      rw [stop_map]
      exact hsigned x d hop (h.accept hop (by decide))
  operand v c hroot hgroup := by
    intro h
    rw [read, operand_eq_within]
    cases hop : c.accept? [rootSign] with
    | some accepted =>
      obtain ⟨x, d⟩ := accepted
      refine stop_andThen (between_within (h.accept hop (by decide)) fun e he => hroot x d e hop he)
        fun y f _ hf => ?_
      rwa [stop_of]
    | none =>
      cases hop' : c.accept? [openParen] with
      | none => exact between_number h
      | some accepted =>
        obtain ⟨x, d⟩ := accepted
        refine stop_andThen (between_within (h.accept hop' (by decide)) fun e he =>
          hgroup x d e hop' he) fun y f _ hf => ?_
        cases hclose : f.accept? [closeParen] with
        | none => exact hf
        | some closed =>
          obtain ⟨z, g⟩ := closed
          exact hf.accept hclose (by decide)

/-- **A reading that begins between lexemes stops between lexemes**, with a value or with a fault. -/
theorem between_stop (h : c.Between text) : (k.read r v c).stop.Between text :=
  (hereditary_between k text).read r v c h

/-! ### All cursors of a reading -/

theorem Entered.between (h : k.Entered start r v c) (hstart : start.Between text) :
    c.Between text := by
  -- What has been read on the way to the rule has stopped between lexemes.
  have value : ∀ {r v c w d}, c.Between text → k.read r v c = .value w d → d.Between text := by
    intro r v c w d hc hw
    have hstop := between_stop (k := k) (r := r) (v := v) hc
    rwa [hw] at hstop
  induction h with
  | start => exact hstart
  | firstTerm _ ih | firstFactor _ ih | base _ ih | unsigned _ _ ih => exact ih
  | sum _ hw ih => exact value (r := .term) (v := default) ih hw
  | product _ hw ih => exact value (r := .exponent) (v := default) ih hw
  | nextTerm _ hop ih | nextFactor _ hop ih | signed _ hop ih => exact ih.accept hop (by decide)
  | nextSum _ hop hw _ ih => exact value (r := .term) (v := default) (ih.accept hop (by decide)) hw
  | nextProduct _ hop hw _ ih =>
    exact value (r := .exponent) (v := default) (ih.accept hop (by decide)) hw
  | power _ hw hop he ih =>
    exact ((value (r := .primary) (v := default) ih hw).accept hop (by decide)).enter he
  | root _ hop he ih | group _ _ hop he ih => exact (ih.accept hop (by decide)).enter he

/-- **The cursors of a reading**: where a rule is entered, where it stops, with a value or with a
fault, and behind an operator, a root or a parenthesis that is accepted at one of them. -/
inductive Stands (k : Calculator) (start : Cursor) : Cursor → Prop
  | entered {r : Rule} {v : Decimal} {c : Cursor} (h : k.Entered start r v c) : Stands k start c
  | stopped {r : Rule} {v : Decimal} {c : Cursor} (h : k.Entered start r v c) :
    Stands k start (k.read r v c).stop
  | accepted {chars : List Char} {x : Char} {c d : Cursor} (h : Stands k start c)
    (hchars : chars ⊆ punctuation) (hop : c.accept? chars = some (x, d)) : Stands k start d
  | left {c : Cursor} (h : Stands k start c) : Stands k start c.leave

/-- **A reading stands between lexemes.** -/
theorem Stands.between (h : k.Stands start c) (hstart : start.Between text) : c.Between text := by
  induction h with
  | entered h => exact h.between hstart
  | stopped h => exact between_stop (h.between hstart)
  | accepted _ hchars hop ih => exact ih.accept hop hchars
  | left _ ih => exact ih.leave

end Calculator

end InfixCalculator
