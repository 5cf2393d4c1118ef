import InfixCalculator.Expression.Evaluation
import InfixCalculator.Proofs.Expression.Parsing

/-! # Signals of the arithmetic

The only signal that comes up while an expression is read is an overflow, and evaluation catches it.

* `Calculator.addOrSub_signal`, `Calculator.mulOrDiv_signal`: the operations signal nothing else.
* `Calculator.proper_read`: neither does any rule of the grammar.
* `Calculator.evaluate_ne_signal`: no signal leaves an evaluation. -/

namespace InfixCalculator

namespace Outcome

variable {o : Outcome} {c d : Cursor}

/-- If the outcome is a signal, it is an overflow. -/
def Proper (o : Outcome) : Prop := ∀ s d, o = .fault (.signal s) d → s = .overflow

theorem proper_value (v : Decimal) (c : Cursor) : (value v c).Proper := nofun

theorem proper_problem (p : Problem) (c : Cursor) : (problem p c).Proper := nofun

theorem proper_of {result : Except Fault Decimal}
    (h : ∀ s, result = .error (.signal s) → s = .overflow) : (of result c).Proper := by
  intro s d hs
  cases result with
  | ok v => cases hs
  | error f => cases hs; exact h s rfl

theorem Proper.andThen (h : o.Proper) {next : Decimal → Cursor → Outcome}
    (hn : ∀ w d, o = .value w d → (next w d).Proper) : (o.andThen next).Proper := by
  cases o with
  | value w d => exact hn w d rfl
  | fault f d => exact h

theorem Proper.leave (h : o.Proper) : o.leave.Proper := by
  cases o with
  | value w d => exact proper_value _ _
  | fault f d => intro s e hs; cases hs; exact h s d rfl

theorem Proper.map (h : o.Proper) (f : Decimal → Decimal) : (o.map f).Proper := by
  cases o with
  | value w d => exact proper_value _ _
  | fault f d => exact h

theorem proper_within {inside : Cursor → Outcome}
    (h : ∀ d, c.enter? = .ok d → (inside d).Proper) : (c.within inside).Proper := by
  unfold Cursor.within
  cases hd : c.enter? with
  | error p => exact proper_problem _ _
  | ok d => exact (h d hd).leave

end Outcome

/-! ### Operations -/

namespace Calculator

open Outcome

variable {k : Calculator} {v w : Decimal} {c d : Cursor} {s : Signal}

theorem arithmeticResult_signal {exact : ℚ} {m : Except Signal Decimal}
    (hm : k.precision.Delivers exact m) (h : arithmeticResult m = .error (.signal s)) :
    s = .overflow := by
  cases m with
  | ok v => cases h
  | error e => cases h; exact (hm.of_error _ rfl).1

/-- A sum or difference without a value is an overflow. -/
theorem addOrSub_signal {op : Char} (h : k.addOrSub op v w = .error (.signal s)) :
    s = .overflow := by
  unfold addOrSub at h
  split_ifs at h
  · exact arithmeticResult_signal (add_delivers k.precision v w).1 h
  · exact arithmeticResult_signal (sub_delivers k.precision v w).1 h

/-- A product or quotient without a value is an overflow, if it is not a division by zero, which is
a problem of the expression. -/
theorem mulOrDiv_signal {op : Char} (h : k.mulOrDiv op c v w = .error (.signal s)) :
    s = .overflow := by
  unfold mulOrDiv at h
  split_ifs at h with hop hw
  · exact arithmeticResult_signal (mul_delivers k.precision v w).1 h
  · cases h
  · exact arithmeticResult_signal (div_delivers k.precision (by simpa using hw)).1 h

theorem powerResult_ne_signal (m : Except PowerError Decimal) :
    powerResult m ≠ .error (.signal s) := by
  cases m <;> simp [powerResult, Except.mapError]

/-! ### Readings -/

theorem proper_number (c : Cursor) : c.number.Proper := by
  unfold Cursor.number
  dsimp only
  split_ifs
  · exact proper_problem _ _
  · exact proper_problem _ _
  · exact proper_problem _ _
  · split
    · exact proper_value _ _
    · exact proper_problem _ _

theorem hereditary_proper (k : Calculator) : k.Hereditary fun r v c => (k.read r v c).Proper where
  expression v c hterm htail := by
    rw [read, expression_eq]
    exact hterm.andThen htail
  term v c hexponent htail := by
    rw [read, term_eq]
    exact hexponent.andThen htail
  sumTail v c hterm htail := by
    rw [read, sumTail_eq]
    split
    · exact proper_value _ _
    · rename_i op d hc
      refine (hterm op d hc).andThen fun w e he => ?_
      exact (proper_of fun s hs => addOrSub_signal hs).andThen fun s f hf => by
        rw [(of_eq_value_iff.mp hf).2]
        exact htail op d w e s hc he
  productTail v c hexponent htail := by
    rw [read, productTail_eq]
    split
    · exact proper_value _ _
    · rename_i op d hc
      refine (hexponent op d hc).andThen fun w e he => ?_
      exact (proper_of fun s hs => mulOrDiv_signal hs).andThen fun s f hf => by
        rw [(of_eq_value_iff.mp hf).2]
        exact htail op d w e s hc he
  exponent v c hprimary hpower := by
    rw [read, exponent_eq_within]
    refine hprimary.andThen fun w d hd => ?_
    split
    · exact proper_value _ _
    · rename_i x e he
      refine (proper_within fun f hf => hpower w d x e f hd he hf).andThen fun y g _ => ?_
      exact proper_of fun s hs => absurd hs (powerResult_ne_signal _)
  primary v c hoperand hsigned := by
    rw [read, primary_eq]
    split
    · exact hoperand
    · rename_i s d hd
      exact (hsigned s d hd).map _
  operand v c hroot hgroup := by
    rw [read, operand_eq_within]
    split
    · rename_i x d hd
      refine (proper_within fun e he => hroot x d e hd he).andThen fun y f _ => ?_
      exact proper_of fun s hs => absurd hs (powerResult_ne_signal _)
    · split
      · rename_i x d hd
        refine (proper_within fun e he => hgroup x d e hd he).andThen fun y f _ => ?_
        split
        · exact proper_value _ _
        · exact proper_problem _ _
      · exact proper_number _

/-- **The only signal is an overflow.** -/
theorem proper_read (k : Calculator) (r : Rule) (v : Decimal) (c : Cursor) :
    (k.read r v c).Proper :=
  (hereditary_proper k).read r v c

/-! ### Evaluation -/

theorem ofFault_of_proper {f : Fault} (text : List Char) (h : ∀ s, f = .signal s → s = .overflow) :
    ∃ e, Failure.ofFault text f = .error e ∧ e.kind = f.kind := by
  cases f with
  | problem p => exact ⟨⟨text, p⟩, rfl, rfl⟩
  | signal s =>
    rw [h s rfl]
    exact ⟨⟨text, .resultTooLarge⟩, rfl, rfl⟩

/-- A fault in a text becomes an error of its kind. -/
theorem evaluateNormal_of_fault {text : List Char} {f : Fault}
    (h : k.expression (.start text (some nestingLimit)) = .fault f d) :
    ∃ e, k.evaluateNormal text = .error (.error e) ∧ e.kind = f.kind := by
  obtain ⟨e, he, hkind⟩ := ofFault_of_proper (f := f) text fun s hs =>
    proper_read k .expression default _ s d (hs ▸ h)
  exact ⟨e, by rw [evaluateNormal, h]; exact congrArg _ he, hkind⟩

/-- **No signal leaves an evaluation**: it ends with a value or an error. -/
theorem evaluate_ne_signal (k : Calculator) (text : List Char) (s : Signal) :
    k.evaluate text ≠ .error (.signal s) := by
  unfold evaluate
  dsimp only
  split_ifs
  · nofun
  · intro h
    cases hread : k.expression (.start (normalize text) (some nestingLimit)) with
    | value v c =>
      rw [evaluateNormal, hread] at h
      dsimp only at h
      split_ifs at h
      cases h
    | fault f c =>
      obtain ⟨e, he, -⟩ := evaluateNormal_of_fault hread
      rw [he] at h
      cases h

end Calculator

end InfixCalculator
