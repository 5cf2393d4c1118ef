import InfixCalculator.Proofs.Expression.Call

/-! # Termination

Reading an expression comes to an end without any limit, since every reading that is called has less
to do.

* `Calculator.byRule`: what a rule makes of the readings that it calls, which need not come to an end.
* `Calculator.readWithin`: what is read if only so many readings may be inside each other.
* `Calculator.byRule_of_calls`: a rule needs the readings that it calls and no others.
* `Calculator.readWithin_of_weight_lt`: as many readings inside each other as its weight suffice.
* `Calculator.reading_terminates`: hence the rules determine all readings, and each makes progress. -/

namespace InfixCalculator

open Cursor Outcome

/-! ### Rules whose parts need not come to an end -/

/-- What is read after a value, if reading has come to one. -/
def continued (o : Option Outcome) (next : Decimal → Cursor → Option Outcome) : Option Outcome :=
  o.bind fun
    | .value v c => next v c
    | .fault f c => some (.fault f c)

/-- What is read one level further inside, if that comes to an end. -/
def inside (c : Cursor) (part : Cursor → Option Outcome) : Option Outcome :=
  match c.enter? with
  | .error p => some (.problem p c)
  | .ok d => (part d).map Outcome.leave

/-- What an operator, its right side and further operators make of a value. -/
def repeated (chars : List Char) (result : Char → Decimal → Except Fault Decimal)
    (part : Cursor → Option Outcome) (rest : Decimal → Cursor → Option Outcome) (v : Decimal)
    (c : Cursor) : Option Outcome :=
  match c.accept? chars with
  | none => some (.value v c)
  | some (op, d) => continued (part d) fun w e => continued (some (.of (result op w) e)) rest

theorem continued_some {o : Outcome} {next : Decimal → Cursor → Option Outcome}
    {next' : Decimal → Cursor → Outcome}
    (h : ∀ v c, o = .value v c → next v c = some (next' v c)) :
    continued (some o) next = some (o.andThen next') := by
  cases o with
  | value v c => exact h v c rfl
  | fault f c => rfl

theorem inside_some {c : Cursor} {part : Cursor → Option Outcome} {read : Cursor → Outcome}
    (h : ∀ d, c.enter? = .ok d → part d = some (read d)) :
    inside c part = some (c.within read) := by
  unfold inside Cursor.within
  cases henter : c.enter? with
  | error p => rfl
  | ok d =>
    dsimp only
    rw [h d henter, Option.map_some]

theorem repeated_some {chars : List Char} {result : Char → Decimal → Except Fault Decimal}
    {part : Cursor → Option Outcome} {read : Cursor → Outcome}
    {rest : Decimal → Cursor → Option Outcome} {tail : Decimal → Cursor → Outcome} {v : Decimal}
    {c : Cursor} (hpart : ∀ op d, c.accept? chars = some (op, d) → part d = some (read d))
    (hrest : ∀ op d w e s, c.accept? chars = some (op, d) → read d = .value w e →
      result op w = .ok s → rest s e = some (tail s e)) :
    repeated chars result part rest v c = some (match c.accept? chars with
      | none => .value v c
      | some (op, d) => (read d).andThen fun w e => (Outcome.of (result op w) e).andThen tail) := by
  unfold repeated
  cases hop : c.accept? chars with
  | none => rfl
  | some accepted =>
    obtain ⟨op, d⟩ := accepted
    dsimp only
    rw [hpart op d hop]
    refine continued_some fun w e hw => continued_some fun s f hof => ?_
    obtain ⟨hs, rfl⟩ := of_eq_value_iff.mp hof
    exact hrest op d w f s hop hw hs

namespace Calculator

/-- **What a rule makes of its parts.** A part that does not come to an end is `none`, and then the
whole does not either. -/
def byRule (k : Calculator) (part : Reading → Option Outcome) : Reading → Option Outcome
  | ⟨.expression, v, c⟩ => continued (part ⟨.term, v, c⟩) fun w d => part ⟨.sumTail, w, d⟩
  | ⟨.sumTail, v, c⟩ => repeated ['+', '-'] (fun op w => k.addOrSub op v w)
    (fun d => part ⟨.term, v, d⟩) (fun s e => part ⟨.sumTail, s, e⟩) v c
  | ⟨.term, v, c⟩ => continued (part ⟨.exponent, v, c⟩) fun w d => part ⟨.productTail, w, d⟩
  | ⟨.productTail, v, c⟩ => repeated ['*', '/'] (fun op w => k.mulOrDiv op c v w)
    (fun d => part ⟨.exponent, v, d⟩) (fun s e => part ⟨.productTail, s, e⟩) v c
  | ⟨.exponent, v, c⟩ => continued (part ⟨.primary, v, c⟩) fun b d =>
    match d.accept? ['^'] with
    | none => some (.value b d)
    | some (_, e) => continued (inside e fun f => part ⟨.exponent, v, f⟩) fun w g =>
      some (.of (powerResult (b.power k.functions w)) g)
  | ⟨.primary, v, c⟩ =>
    match c.accept? ['+', '-'] with
    | none => part ⟨.operand, v, c⟩
    | some (sign, d) => (part ⟨.operand, v, d⟩).map (Outcome.map (signed sign))
  | ⟨.operand, v, c⟩ =>
    match c.accept? [rootSign] with
    | some (_, d) => continued (inside d fun e => part ⟨.primary, v, e⟩) fun w f =>
      some (.of (powerResult (w.squareRoot k.functions)) f)
    | none =>
      match c.accept? [openParen] with
      | some (_, d) => continued (inside d fun e => part ⟨.expression, v, e⟩) fun w f =>
        match f.accept? [closeParen] with
        | some (_, g) => some (.value w g)
        | none => some (.problem (.unclosedGroup c.position) f)
      | none => some c.number

/-- What is read if no more than `n` readings may be inside each other, and `none` if these do not
suffice. A repetition is inside what it continues. -/
def readWithin (k : Calculator) : ℕ → Reading → Option Outcome
  | 0, _ => none
  | n + 1, x => k.byRule (k.readWithin n) x

variable {k : Calculator} {part : Reading → Option Outcome} {x y : Reading} {m n : ℕ}

/-- **A rule needs the readings that it calls**: it comes to its outcome if they do, whatever may be
with others. -/
theorem byRule_of_calls (h : ∀ n y, k.Calls x n y → part y = some (k.outcome y)) :
    k.byRule part x = some (k.outcome x) := by
  obtain ⟨r, v, c⟩ := x
  cases r with
  | expression =>
    have hterm : part ⟨.term, v, c⟩ = some (k.term c) := h _ _ .firstTerm
    show continued (part ⟨.term, v, c⟩) _ = some (k.expression c)
    rw [hterm, expression_eq]
    exact continued_some fun w d hw => h _ _ (.sum hw)
  | sumTail =>
    show repeated ['+', '-'] (fun op w => k.addOrSub op v w) _ _ v c = some (k.sumTail v c)
    rw [sumTail_eq]
    exact repeated_some (fun op d hop => h _ _ (.nextTerm hop))
      fun op d w e s hop hw hs => h _ _ (.nextSum hop hw hs)
  | term =>
    have hexponent : part ⟨.exponent, v, c⟩ = some (k.exponent c) := h _ _ .firstFactor
    show continued (part ⟨.exponent, v, c⟩) _ = some (k.term c)
    rw [hexponent, term_eq]
    exact continued_some fun w d hw => h _ _ (.product hw)
  | productTail =>
    show repeated ['*', '/'] (fun op w => k.mulOrDiv op c v w) _ _ v c = some (k.productTail v c)
    rw [productTail_eq]
    exact repeated_some (fun op d hop => h _ _ (.nextFactor hop))
      fun op d w e s hop hw hs => h _ _ (.nextProduct hop hw hs)
  | exponent =>
    have hprimary : part ⟨.primary, v, c⟩ = some (k.primary c) := h _ _ .base
    show continued (part ⟨.primary, v, c⟩) _ = some (k.exponent c)
    rw [hprimary, exponent_eq_within]
    refine continued_some fun b d hb => ?_
    cases hop : d.accept? ['^'] with
    | none => rfl
    | some accepted =>
      obtain ⟨y, e⟩ := accepted
      dsimp only
      rw [inside_some fun f hf => h _ _ (.power hb hop hf)]
      exact continued_some fun w g _ => rfl
  | primary =>
    show (match c.accept? ['+', '-'] with | none => _ | some (op, d) => _) = some (k.primary c)
    rw [primary_eq]
    cases hop : c.accept? ['+', '-'] with
    | none => exact h _ _ (.unsigned hop)
    | some accepted =>
      obtain ⟨sign, d⟩ := accepted
      have hoperand : part ⟨.operand, v, d⟩ = some (k.operand d) := h _ _ (.signed hop)
      dsimp only
      rw [hoperand, Option.map_some]
  | operand =>
    show (match c.accept? [rootSign] with | some (_, d) => _ | none => _) = some (k.operand c)
    rw [operand_eq_within]
    cases hroot : c.accept? [rootSign] with
    | some accepted =>
      obtain ⟨y, d⟩ := accepted
      dsimp only
      rw [inside_some fun e he => h _ _ (.root hroot he)]
      exact continued_some fun w f _ => rfl
    | none =>
      dsimp only
      cases hop : c.accept? [openParen] with
      | none => rfl
      | some accepted =>
        obtain ⟨y, d⟩ := accepted
        dsimp only
        rw [inside_some fun e he => h _ _ (.group hroot hop he)]
        refine continued_some fun w f _ => ?_
        cases f.accept? [closeParen] <;> rfl

/-! ### Coming to an end -/

/-- **No reading calls others without end.** -/
theorem wellFounded_calls (k : Calculator) : WellFounded fun y x => ∃ m, k.Calls x m y :=
  Subrelation.wf (fun ⟨_, h⟩ => h.weight_lt) (measure Reading.weight).wf

/-- **So many readings inside each other suffice.** -/
theorem readWithin_of_weight_lt (h : x.weight < n) : k.readWithin n x = some (k.outcome x) := by
  induction n generalizing x with
  | zero => exact absurd h (Nat.not_lt_zero _)
  | succ n ih =>
    refine byRule_of_calls fun m y hy => ih ?_
    exact hy.weight_lt.trans_le (Nat.le_of_lt_succ h)

/-- **The rules determine what is read.** -/
theorem eq_outcome_of_byRule (h : ∀ x, part x = k.byRule part x) (x : Reading) :
    part x = some (k.outcome x) := by
  induction x using k.wellFounded_calls.induction with
  | _ x ih =>
    rw [h x]
    exact byRule_of_calls fun m y hy => ih y ⟨m, hy⟩

/-! ### Progress -/

theorem left_lt_of_outcome {w : Decimal} {d : Cursor} (hr : x.rule ∉ Rule.repetitions)
    (h : k.outcome x = .value w d) : d.left < x.start.left := by
  obtain ⟨r, v, c⟩ := x
  cases r with
  | expression =>
    have hprogress := (Descent.expression k c).2
    rwa [show (Descent.expression k c).1 = _ from h] at hprogress
  | term => exact left_lt_of_term h
  | exponent => exact left_lt_of_exponent h
  | primary => exact left_lt_of_primary h
  | operand => exact left_lt_of_operand h
  | sumTail | productTail => simp [Rule.repetitions] at hr

/-- **Reading comes to an end**, whatever the text, the position, the depth and the limit, if there is
one. If five readings may be inside each other for each character that is left, and five more, they
always suffice; and the rules alone determine what is read. A rule needs no other readings than those
that it calls. Each of these has fewer characters left or as many and a rule of a lower level, so that
none calls others without end. A value costs at least one character, and a repetition two for each
time. -/
theorem reading_terminates (k : Calculator) :
    (∀ (x : Reading) (n : ℕ), 5 * x.start.left + 5 ≤ n → k.readWithin n x = some (k.outcome x)) ∧
    (∀ part : Reading → Option Outcome, (∀ x, part x = k.byRule part x) →
      ∀ x, part x = some (k.outcome x)) ∧
    (∀ (part : Reading → Option Outcome) (x : Reading),
      (∀ m y, k.Calls x m y → part y = some (k.outcome y)) →
        k.byRule part x = some (k.outcome x)) ∧
    (∀ x m y, k.Calls x m y → Prod.Lex (· < ·) (· < ·) (y.start.left, y.rule.level)
      (x.start.left, x.rule.level)) ∧
    (∀ x m y, k.Calls x m y → y.start.position = x.start.position →
      y.rule.level < x.rule.level) ∧
    (WellFounded fun y x => ∃ m, k.Calls x m y) ∧
    (∀ x w d, x.rule ∉ Rule.repetitions → k.outcome x = .value w d →
      x.start.position + 1 ≤ d.position) ∧
    ∀ x m y, k.Calls x m y → y.rule = x.rule → x.rule ∈ Rule.repetitions →
      x.start.position + 2 ≤ y.start.position := by
  refine ⟨fun x n hn => readWithin_of_weight_lt ?_, fun part => eq_outcome_of_byRule,
    fun part x => byRule_of_calls, fun x m y h => ?_, fun x m y h hposition => ?_,
    k.wellFounded_calls, fun x w d hr h => ?_, fun x m y h hrule hr => ?_⟩
  · have hlevel := x.rule.level_le
    unfold Reading.weight
    omega
  · rcases h.left_lt_or_level_lt with hleft | ⟨hleft, hless⟩
    · exact .left _ _ hleft
    · rw [hleft]
      exact .right _ hless
  · rcases h.left_lt_or_level_lt with hleft | ⟨-, hless⟩
    · have hadvance := h.reaches.position_add_le (n := 1) hleft
      omega
    · exact hless
  · exact (reaches_of_value h).position_add_le (left_lt_of_outcome hr h)
  · exact h.reaches.position_add_le (h.left_add_two_le hrule hr)

end Calculator

end InfixCalculator
