import InfixCalculator.Expression.Grammar
import InfixCalculator.Proofs.Expression.Cursor

/-! # Induction over readings

What the rules of the grammar have in common, said once for all of them.

* `Outcome.andThen_eq_value_iff` and its like: where the value of a composed outcome comes from.
* `Cursor.within`: a reading one level further inside; `Calculator.exponent_eq_within`,
  `operand_eq_within`: what the rules read there.
* `Rule`: the rules; `Calculator.read`: what a rule reads at a cursor.
* `Calculator.left_lt_of_term` and its like: a value costs at least one character.
* `Calculator.Hereditary`: a property passes from the parts of a reading to the whole, one clause for
  each rule; `Calculator.Hereditary.read`: then all readings have it. -/

namespace InfixCalculator

/-- The rules of the grammar. A repetition is a rule of its own: it continues from the value of what
stands before it. -/
inductive Rule where
  | expression
  | sumTail
  | term
  | productTail
  | exponent
  | primary
  | operand
deriving DecidableEq

/-! ### Outcomes that are values -/

namespace Outcome

variable {o : Outcome} {c d : Cursor}

theorem andThen_eq_value_iff {next : Decimal → Cursor → Outcome} {w : Decimal} :
    o.andThen next = .value w d ↔ ∃ v c, o = .value v c ∧ next v c = .value w d := by
  cases o with
  | value v c =>
    constructor
    · intro h; exact ⟨v, c, rfl, h⟩
    · rintro ⟨_, _, h, h'⟩; cases h; exact h'
  | fault f c =>
    constructor
    · intro h; cases h
    · rintro ⟨_, _, h, -⟩; cases h

theorem of_eq_value_iff {result : Except Fault Decimal} {w : Decimal} :
    of result c = .value w d ↔ result = .ok w ∧ d = c := by
  cases result <;> simp [of, eq_comm]

theorem leave_eq_value_iff {w : Decimal} :
    o.leave = .value w d ↔ ∃ e, o = .value w e ∧ d = e.leave := by
  cases o with
  | value v c =>
    constructor
    · intro h; cases h; exact ⟨c, rfl, rfl⟩
    · rintro ⟨_, h, rfl⟩; cases h; rfl
  | fault f c =>
    constructor
    · intro h; cases h
    · rintro ⟨_, h, -⟩; cases h

theorem map_eq_value_iff {f : Decimal → Decimal} {w : Decimal} :
    o.map f = .value w d ↔ ∃ v, o = .value v d ∧ w = f v := by
  cases o with
  | value v c =>
    constructor
    · intro h; cases h; exact ⟨v, rfl, rfl⟩
    · rintro ⟨_, h, rfl⟩; cases h; rfl
  | fault f c =>
    constructor
    · intro h; cases h
    · rintro ⟨_, h, -⟩; cases h

end Outcome

/-! ### One level further inside -/

/-- What is read one level further inside, seen from outside, if there is room for the level. -/
def Cursor.within (c : Cursor) (inside : Cursor → Outcome) : Outcome :=
  match c.enter? with
  | .error p => .problem p c
  | .ok d => (inside d).leave

theorem Cursor.within_eq_value_iff {c d : Cursor} {inside : Cursor → Outcome} {w : Decimal} :
    c.within inside = .value w d ↔
      ∃ e f, c.enter? = .ok e ∧ inside e = .value w f ∧ d = f.leave := by
  unfold within
  cases c.enter? with
  | error p =>
    constructor
    · intro h; cases h
    · rintro ⟨_, _, h, -⟩; cases h
  | ok e =>
    dsimp only
    rw [Outcome.leave_eq_value_iff]
    constructor
    · rintro ⟨f, h, hd⟩; exact ⟨e, f, rfl, h, hd⟩
    · rintro ⟨_, f, h, h', hd⟩; cases h; exact ⟨f, h', hd⟩

namespace Calculator

variable {k : Calculator} {v w : Decimal} {c d : Cursor}

theorem exponent_eq_within (k : Calculator) (c : Cursor) : k.exponent c =
    (k.primary c).andThen fun b d =>
      match d.accept? ['^'] with
      | none => .value b d
      | some (_, e) => (e.within k.exponent).andThen fun v f =>
        .of (powerResult (b.power k.functions v)) f := by
  rw [exponent_eq]
  congr 1
  funext b d
  cases d.accept? ['^'] with
  | none => rfl
  | some accepted =>
    unfold Cursor.within
    dsimp only
    cases accepted.2.enter? <;> rfl

theorem operand_eq_within (k : Calculator) (c : Cursor) : k.operand c =
    match c.accept? [rootSign] with
    | some (_, d) => (d.within k.primary).andThen fun v e =>
      .of (powerResult (v.squareRoot k.functions)) e
    | none =>
      match c.accept? [openParen] with
      | some (_, d) => (d.within k.expression).andThen fun v e =>
        match e.accept? [closeParen] with
        | some (_, f) => .value v f
        | none => .problem (.unclosedGroup c.position) e
      | none => c.number := by
  rw [operand_eq]
  unfold Cursor.within
  cases c.accept? [rootSign] with
  | some accepted =>
    dsimp only
    cases accepted.2.enter? <;> rfl
  | none =>
    cases c.accept? [openParen] with
    | some accepted =>
      dsimp only
      cases accepted.2.enter? <;> rfl
    | none => rfl

/-- What a rule reads at a cursor. Only repetitions look at the value `v` before it. -/
def read (k : Calculator) : Rule → Decimal → Cursor → Outcome
  | .expression, _, c => k.expression c
  | .sumTail, v, c => k.sumTail v c
  | .term, _, c => k.term c
  | .productTail, v, c => k.productTail v c
  | .exponent, _, c => k.exponent c
  | .primary, _, c => k.primary c
  | .operand, _, c => k.operand c

/-! ### Progress -/

theorem left_lt_of_term (h : k.term c = .value w d) : d.left < c.left := by
  have hp := (Descent.term k c).2
  rwa [show (Descent.term k c).1 = _ from h] at hp

theorem left_lt_of_exponent (h : k.exponent c = .value w d) : d.left < c.left := by
  have hp := (Descent.exponent k c).2
  rwa [show (Descent.exponent k c).1 = _ from h] at hp

theorem left_lt_of_primary (h : k.primary c = .value w d) : d.left < c.left := by
  have hp := (Descent.primary k c).2
  rwa [show (Descent.primary k c).1 = _ from h] at hp

theorem left_lt_of_operand (h : k.operand c = .value w d) : d.left < c.left := by
  have hp := (Descent.operand k c).2
  rwa [show (Descent.operand k c).1 = _ from h] at hp

/-! ### The induction -/

/-- **A property of readings that passes from parts to the whole.** For each rule, the property may
be assumed of everything that the rule reads on its way, where it reads it. -/
structure Hereditary (k : Calculator) (P : Rule → Decimal → Cursor → Prop) : Prop where
  expression : ∀ v c, P .term v c → (∀ w d, k.term c = .value w d → P .sumTail w d) →
    P .expression v c
  sumTail : ∀ v c, (∀ op d, c.accept? ['+', '-'] = some (op, d) → P .term v d) →
    (∀ op d w e s, c.accept? ['+', '-'] = some (op, d) → k.term d = .value w e →
      P .sumTail s e) → P .sumTail v c
  term : ∀ v c, P .exponent v c → (∀ w d, k.exponent c = .value w d → P .productTail w d) →
    P .term v c
  productTail : ∀ v c, (∀ op d, c.accept? ['*', '/'] = some (op, d) → P .exponent v d) →
    (∀ op d w e s, c.accept? ['*', '/'] = some (op, d) → k.exponent d = .value w e →
      P .productTail s e) → P .productTail v c
  exponent : ∀ v c, P .primary v c →
    (∀ w d x e f, k.primary c = .value w d → d.accept? ['^'] = some (x, e) → e.enter? = .ok f →
      P .exponent v f) → P .exponent v c
  primary : ∀ v c, P .operand v c →
    (∀ s d, c.accept? ['+', '-'] = some (s, d) → P .operand v d) → P .primary v c
  operand : ∀ v c,
    (∀ x d e, c.accept? [rootSign] = some (x, d) → d.enter? = .ok e → P .primary v e) →
    (∀ x d e, c.accept? [openParen] = some (x, d) → d.enter? = .ok e → P .expression v e) →
    P .operand v c

/-- **Induction over readings.** What is read inside a reading has fewer characters left, or as many
and a rule further down the grammar. -/
theorem Hereditary.read {P : Rule → Decimal → Cursor → Prop} (h : k.Hereditary P) (r : Rule)
    (v : Decimal) (c : Cursor) : P r v c := by
  induction hn : c.left using Nat.strongRecOn generalizing r v c with
  | ind n ih =>
    subst hn
    have hless : ∀ {d : Cursor}, d.left < c.left → ∀ r v, P r v d := fun hd r v => ih _ hd r v _ rfl
    have haccept : ∀ {chars : List Char} {x : Char} {d : Cursor}, c.accept? chars = some (x, d) →
        ∀ r v, P r v d := fun hd => hless (Cursor.left_of_accept? hd)
    have henter : ∀ {chars : List Char} {x : Char} {d e : Cursor}, c.accept? chars = some (x, d) →
        d.enter? = .ok e → ∀ r v, P r v e := fun hd he => hless
      (by rw [Cursor.left_of_enter? he]; exact Cursor.left_of_accept? hd)
    have operand : ∀ v, P .operand v c := fun v =>
      h.operand v c (fun _ _ _ hd he => henter hd he _ _) (fun _ _ _ hd he => henter hd he _ _)
    have primary : ∀ v, P .primary v c := fun v =>
      h.primary v c (operand v) (fun _ _ hd => haccept hd _ _)
    have exponent : ∀ v, P .exponent v c := fun v => by
      refine h.exponent v c (primary v) fun w d x e f hd he hf => hless ?_ _ _
      have hd' := left_lt_of_primary hd
      have he' := Cursor.left_of_accept? he
      rw [Cursor.left_of_enter? hf]
      omega
    have term : ∀ v, P .term v c := fun v =>
      h.term v c (exponent v) fun w d hd => hless (left_lt_of_exponent hd) _ _
    cases r with
    | expression =>
      exact h.expression v c (term v) fun w d hd => hless (left_lt_of_term hd) _ _
    | sumTail =>
      refine h.sumTail v c (fun _ _ hd => haccept hd _ _) fun op d w e s hd he => hless ?_ _ _
      exact Nat.lt_trans (left_lt_of_term he) (Cursor.left_of_accept? hd)
    | term => exact term v
    | productTail =>
      refine h.productTail v c (fun _ _ hd => haccept hd _ _) fun op d w e s hd he => hless ?_ _ _
      exact Nat.lt_trans (left_lt_of_exponent he) (Cursor.left_of_accept? hd)
    | exponent => exact exponent v
    | primary => exact primary v
    | operand => exact operand v

end Calculator

end InfixCalculator
