import InfixCalculator.Proofs.Expression.Induction

/-! # The way of a reading

Which rules a reading enters, at which cursors, and which of them ends it by a problem.

* `Outcome.andThen_eq_fault_iff` and its like: where the fault of a composed outcome comes from.
* `Calculator.Entered`: the rules that the reading of an expression enters on its way, each with its
  cursor and the value before it.
* `Calculator.Raised`: the problems that arise at one of them.
* `Calculator.raised_of_fault`: a reading ends by no other problem. -/

namespace InfixCalculator

/-! ### Outcomes that are faults -/

namespace Outcome

variable {o : Outcome} {c d : Cursor} {f : Fault}

theorem andThen_eq_fault_iff {next : Decimal → Cursor → Outcome} :
    o.andThen next = .fault f d ↔
      o = .fault f d ∨ ∃ v c, o = .value v c ∧ next v c = .fault f d := by
  cases o with
  | value v c =>
    constructor
    · intro h; exact .inr ⟨v, c, rfl, h⟩
    · rintro (h | ⟨_, _, h, h'⟩)
      · cases h
      · cases h; exact h'
  | fault g c =>
    constructor
    · intro h; exact .inl h
    · rintro (h | ⟨_, _, h, -⟩)
      · exact h
      · cases h

theorem of_eq_fault_iff {result : Except Fault Decimal} :
    of result c = .fault f d ↔ result = .error f ∧ d = c := by
  cases result <;> simp [of, eq_comm]

theorem leave_eq_fault_iff : o.leave = .fault f d ↔ ∃ e, o = .fault f e ∧ d = e.leave := by
  cases o with
  | value v c =>
    constructor
    · intro h; cases h
    · rintro ⟨_, h, -⟩; cases h
  | fault g c =>
    constructor
    · intro h; cases h; exact ⟨c, rfl, rfl⟩
    · rintro ⟨_, h, rfl⟩; cases h; rfl

theorem map_eq_fault_iff {g : Decimal → Decimal} : o.map g = .fault f d ↔ o = .fault f d := by
  cases o <;> simp [map]

end Outcome

theorem Cursor.within_eq_fault_iff {c d : Cursor} {inside : Cursor → Outcome} {f : Fault} :
    c.within inside = .fault f d ↔ (∃ p, c.enter? = .error p ∧ f = .problem p ∧ d = c) ∨
      ∃ e g, c.enter? = .ok e ∧ inside e = .fault f g ∧ d = g.leave := by
  unfold within
  cases c.enter? with
  | error p => simp [Outcome.problem, eq_comm]
  | ok e =>
    dsimp only
    rw [Outcome.leave_eq_fault_iff]
    constructor
    · rintro ⟨g, h, hd⟩; exact .inr ⟨e, g, rfl, h, hd⟩
    · rintro (⟨_, h, -⟩ | ⟨_, g, h, h', hd⟩)
      · cases h
      · cases h; exact ⟨g, h', hd⟩

namespace Calculator

open Outcome

/-! ### Rules that are entered -/

/-- **The way of a reading.** On its way, the reading of an expression at `start` enters the rule at
the cursor, with the value before it. Operands, terms and factors are entered behind what was read
before them, and one level further inside only if there is room for it. -/
inductive Entered (k : Calculator) (start : Cursor) : Rule → Decimal → Cursor → Prop
  | start (v : Decimal) : Entered k start .expression v start
  | firstTerm {v : Decimal} {c : Cursor} (h : Entered k start .expression v c) :
    Entered k start .term v c
  | sum {v w : Decimal} {c d : Cursor} (h : Entered k start .expression v c)
    (hw : k.term c = .value w d) : Entered k start .sumTail w d
  | nextTerm {v : Decimal} {c d : Cursor} {op : Char} (h : Entered k start .sumTail v c)
    (hop : c.accept? ['+', '-'] = some (op, d)) : Entered k start .term v d
  | nextSum {v w s : Decimal} {c d e : Cursor} {op : Char} (h : Entered k start .sumTail v c)
    (hop : c.accept? ['+', '-'] = some (op, d)) (hw : k.term d = .value w e)
    (hs : k.addOrSub op v w = .ok s) : Entered k start .sumTail s e
  | firstFactor {v : Decimal} {c : Cursor} (h : Entered k start .term v c) :
    Entered k start .exponent v c
  | product {v w : Decimal} {c d : Cursor} (h : Entered k start .term v c)
    (hw : k.exponent c = .value w d) : Entered k start .productTail w d
  | nextFactor {v : Decimal} {c d : Cursor} {op : Char} (h : Entered k start .productTail v c)
    (hop : c.accept? ['*', '/'] = some (op, d)) : Entered k start .exponent v d
  | nextProduct {v w s : Decimal} {c d e : Cursor} {op : Char} (h : Entered k start .productTail v c)
    (hop : c.accept? ['*', '/'] = some (op, d)) (hw : k.exponent d = .value w e)
    (hs : k.mulOrDiv op c v w = .ok s) : Entered k start .productTail s e
  | base {v : Decimal} {c : Cursor} (h : Entered k start .exponent v c) :
    Entered k start .primary v c
  | power {v w : Decimal} {c d e f : Cursor} {x : Char} (h : Entered k start .exponent v c)
    (hw : k.primary c = .value w d) (hop : d.accept? ['^'] = some (x, e)) (he : e.enter? = .ok f) :
    Entered k start .exponent v f
  | unsigned {v : Decimal} {c : Cursor} (h : Entered k start .primary v c)
    (hop : c.accept? ['+', '-'] = none) : Entered k start .operand v c
  | signed {v : Decimal} {c d : Cursor} {x : Char} (h : Entered k start .primary v c)
    (hop : c.accept? ['+', '-'] = some (x, d)) : Entered k start .operand v d
  | root {v : Decimal} {c d e : Cursor} {x : Char} (h : Entered k start .operand v c)
    (hop : c.accept? [rootSign] = some (x, d)) (he : d.enter? = .ok e) : Entered k start .primary v e
  | group {v : Decimal} {c d e : Cursor} {x : Char} (h : Entered k start .operand v c)
    (hroot : c.accept? [rootSign] = none) (hop : c.accept? [openParen] = some (x, d))
    (he : d.enter? = .ok e) : Entered k start .expression v e

/-! ### Problems -/

/-- **The problems of a reading**: those that arise at one of the rules that it enters, and not
inside another one. -/
inductive Raised (k : Calculator) (start : Cursor) : Problem → Prop
  | division {v w : Decimal} {c d e : Cursor} {op : Char} {p : Problem}
    (h : k.Entered start .productTail v c) (hop : c.accept? ['*', '/'] = some (op, d))
    (hw : k.exponent d = .value w e) (hp : k.mulOrDiv op c v w = .error (.problem p)) :
    Raised k start p
  | powerLevel {v w : Decimal} {c d e : Cursor} {x : Char} {p : Problem}
    (h : k.Entered start .exponent v c) (hw : k.primary c = .value w d)
    (hop : d.accept? ['^'] = some (x, e)) (hp : e.enter? = .error p) : Raised k start p
  | power {b w : Decimal} {p : Problem}
    (hp : powerResult (b.power k.functions w) = .error (.problem p)) : Raised k start p
  | rootLevel {v : Decimal} {c d : Cursor} {x : Char} {p : Problem}
    (h : k.Entered start .operand v c) (hop : c.accept? [rootSign] = some (x, d))
    (hp : d.enter? = .error p) : Raised k start p
  | root {w : Decimal} {p : Problem}
    (hp : powerResult (w.squareRoot k.functions) = .error (.problem p)) : Raised k start p
  | groupLevel {v : Decimal} {c d : Cursor} {x : Char} {p : Problem}
    (h : k.Entered start .operand v c) (hop : c.accept? [openParen] = some (x, d))
    (hp : d.enter? = .error p) : Raised k start p
  | unclosed {v w : Decimal} {c d e : Cursor} {x : Char} (h : k.Entered start .operand v c)
    (hop : c.accept? [openParen] = some (x, d)) (hw : d.within k.expression = .value w e)
    (hclose : e.accept? [closeParen] = none) : Raised k start (.unclosedGroup c.position)
  | number {v : Decimal} {c d : Cursor} {p : Problem} (h : k.Entered start .operand v c)
    (hroot : c.accept? [rootSign] = none) (hopen : c.accept? [openParen] = none)
    (hp : c.number = .fault (.problem p) d) : Raised k start p

variable {k : Calculator} {start : Cursor}

theorem arithmeticResult_ne_problem (m : Except Signal Decimal) (p : Problem) :
    arithmeticResult m ≠ .error (.problem p) := by
  intro h
  cases m with
  | ok v => cases h
  | error s => cases h

/-- The problems of powers and roots have no position. -/
theorem position?_of_powerResult {m : Except PowerError Decimal} {p : Problem}
    (h : powerResult m = .error (.problem p)) : p.position? = none := by
  cases m with
  | ok w => cases h
  | error e => cases h; rfl

theorem hereditary_raised (k : Calculator) (start : Cursor) :
    k.Hereditary fun r v c => k.Entered start r v c → ∀ p d,
      k.read r v c = .fault (.problem p) d → k.Raised start p where
  expression v c hterm htail := by
    intro henter p d h
    rw [read, expression_eq, andThen_eq_fault_iff] at h
    rcases h with h | ⟨w, e, hw, h⟩
    · exact hterm henter.firstTerm p d h
    · exact htail w e hw (henter.sum hw) p d h
  term v c hexponent htail := by
    intro henter p d h
    rw [read, term_eq, andThen_eq_fault_iff] at h
    rcases h with h | ⟨w, e, hw, h⟩
    · exact hexponent henter.firstFactor p d h
    · exact htail w e hw (henter.product hw) p d h
  sumTail v c hterm htail := by
    intro henter p d h
    rw [read, sumTail_eq] at h
    cases hop : c.accept? ['+', '-'] with
    | none => rw [hop] at h; cases h
    | some accepted =>
      obtain ⟨op, e⟩ := accepted
      rw [hop] at h
      simp only [andThen_eq_fault_iff, of_eq_fault_iff, of_eq_value_iff] at h
      rcases h with h | ⟨w, f, hw, ⟨h, -⟩ | ⟨s, g, ⟨hs, rfl⟩, h⟩⟩
      · exact hterm op e hop (henter.nextTerm hop) p d h
      · exact absurd h (arithmeticResult_ne_problem _ p)
      · exact htail op e w _ s hop hw (henter.nextSum hop hw hs) p d h
  productTail v c hexponent htail := by
    intro henter p d h
    rw [read, productTail_eq] at h
    cases hop : c.accept? ['*', '/'] with
    | none => rw [hop] at h; cases h
    | some accepted =>
      obtain ⟨op, e⟩ := accepted
      rw [hop] at h
      simp only [andThen_eq_fault_iff, of_eq_fault_iff, of_eq_value_iff] at h
      rcases h with h | ⟨w, f, hw, ⟨h, -⟩ | ⟨s, g, ⟨hs, rfl⟩, h⟩⟩
      · exact hexponent op e hop (henter.nextFactor hop) p d h
      · exact .division henter hop hw h
      · exact htail op e w _ s hop hw (henter.nextProduct hop hw hs) p d h
  exponent v c hprimary hpower := by
    intro henter p d h
    rw [read, exponent_eq_within, andThen_eq_fault_iff] at h
    rcases h with h | ⟨w, e, hw, h⟩
    · exact hprimary henter.base p d h
    cases hop : e.accept? ['^'] with
    | none => rw [hop] at h; cases h
    | some accepted =>
      obtain ⟨x, f⟩ := accepted
      rw [hop] at h
      simp only [andThen_eq_fault_iff, of_eq_fault_iff, Cursor.within_eq_fault_iff] at h
      rcases h with (⟨q, hq, heq, -⟩ | ⟨g, i, hg, h, -⟩) | ⟨y, i, -, h, -⟩
      · cases heq
        exact .powerLevel henter hw hop hq
      · exact hpower w e x f g hw hop hg (henter.power hw hop hg) p i h
      · exact .power h
  primary v c hoperand hsigned := by
    intro henter p d h
    rw [read, primary_eq] at h
    cases hop : c.accept? ['+', '-'] with
    | none =>
      rw [hop] at h
      exact hoperand (henter.unsigned hop) p d h
    | some accepted =>
      obtain ⟨x, e⟩ := accepted
      rw [hop] at h
      exact hsigned x e hop (henter.signed hop) p d (map_eq_fault_iff.mp h)
  operand v c hroot hgroup := by
    intro henter p d h
    rw [read, operand_eq_within] at h
    cases hop : c.accept? [rootSign] with
    | some accepted =>
      obtain ⟨x, e⟩ := accepted
      rw [hop] at h
      simp only [andThen_eq_fault_iff, of_eq_fault_iff, Cursor.within_eq_fault_iff] at h
      rcases h with (⟨q, hq, heq, -⟩ | ⟨g, i, hg, h, -⟩) | ⟨y, i, -, h, -⟩
      · cases heq
        exact .rootLevel henter hop hq
      · exact hroot x e g hop hg (henter.root hop hg) p i h
      · exact .root h
    | none =>
      rw [hop] at h
      dsimp only at h
      cases hop' : c.accept? [openParen] with
      | none =>
        rw [hop'] at h
        exact .number henter hop hop' h
      | some accepted =>
        obtain ⟨x, e⟩ := accepted
        rw [hop'] at h
        simp only [andThen_eq_fault_iff, Cursor.within_eq_fault_iff] at h
        rcases h with (⟨q, hq, heq, -⟩ | ⟨g, i, hg, h, -⟩) | ⟨y, i, hw, h⟩
        · cases heq
          exact .groupLevel henter hop' hq
        · exact hgroup x e g hop' hg (henter.group hop hop' hg) p i h
        · cases hclose : i.accept? [closeParen] with
          | some closed => rw [hclose] at h; cases h
          | none =>
            rw [hclose] at h
            cases h
            exact .unclosed henter hop' hw hclose

/-- **A reading ends by no other problem** than those that arise at the rules that it enters. -/
theorem raised_of_fault {p : Problem} {d : Cursor}
    (h : k.expression start = .fault (.problem p) d) : k.Raised start p :=
  (hereditary_raised k start).read .expression default start (.start default) p d h

end Calculator

end InfixCalculator
