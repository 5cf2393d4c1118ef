import InfixCalculator.Decimal.Arithmetic
import InfixCalculator.Expression.Cursor

/-! # Outcomes of reading

Reading a part of an expression yields a value or a fault, and in both cases the cursor where it
stopped.

* `Outcome`: what a reading comes to; `Outcome.andThen` continues after a value.
* `Progress`: an outcome whose value was paid for with at least one character. It is what makes
  recursive descent well founded. -/

namespace InfixCalculator

/-- What ends a reading without a value. -/
inductive Fault where
  /-- Something is wrong with the expression. -/
  | problem (p : Problem)
  /-- An operation of the arithmetic has no result. -/
  | signal (s : Signal)
deriving DecidableEq

/-- A value or a fault, and the cursor where reading stopped. -/
inductive Outcome where
  | value (v : Decimal) (stop : Cursor)
  | fault (f : Fault) (stop : Cursor)

namespace Outcome

/-- Where reading stopped. -/
def stop : Outcome → Cursor
  | value _ c => c
  | fault _ c => c

/-- The outcome with another value. -/
def map (f : Decimal → Decimal) : Outcome → Outcome
  | value v c => value (f v) c
  | fault e c => fault e c

/-- The outcome seen from outside the innermost level. -/
def leave : Outcome → Outcome
  | value v c => value v c.leave
  | fault e c => fault e c.leave

/-- Reading goes on after a value, and a fault ends it. -/
def andThen (o : Outcome) (next : Decimal → Cursor → Outcome) : Outcome :=
  match o with
  | value v c => next v c
  | fault e c => fault e c

/-- A problem at a cursor. -/
def problem (p : Problem) (c : Cursor) : Outcome := fault (.problem p) c

/-- The result of an operation, at the cursor behind its last operand. -/
def of (result : Except Fault Decimal) (c : Cursor) : Outcome :=
  match result with
  | .ok v => value v c
  | .error e => fault e c

end Outcome

/-! ## Progress -/

/-- The outcome, if a value, leaves fewer than `bound` characters. -/
def Outcome.LeavesBelow (bound : Nat) : Outcome → Prop
  | .value _ c => c.left < bound
  | .fault _ _ => True

/-- An outcome that, if a value, leaves fewer than `bound` characters. -/
def Progress (bound : Nat) : Type := { o : Outcome // o.LeavesBelow bound }

namespace Progress

variable {m n : Nat}

/-- A value with the cursor where reading stopped. -/
@[inline] def value (v : Decimal) (c : Cursor) (h : c.left < n) : Progress n := ⟨.value v c, h⟩

/-- A problem with the cursor where reading stopped. -/
@[inline] def problem (p : Problem) (c : Cursor) : Progress n := ⟨.problem p c, trivial⟩

/-- The same outcome under a greater bound. -/
@[inline] def weaken (o : Progress m) (h : m ≤ n) : Progress n :=
  ⟨o.1, match o with
    | ⟨.value _ _, hc⟩ => Nat.lt_of_lt_of_le hc h
    | ⟨.fault _ _, _⟩ => trivial⟩

/-- The value is changed. -/
@[inline] def map (f : Decimal → Decimal) (o : Progress n) : Progress n :=
  ⟨o.1.map f, match o with
    | ⟨.value _ _, hc⟩ => hc
    | ⟨.fault _ _, _⟩ => trivial⟩

/-- The innermost level is left. -/
@[inline] def leave (o : Progress n) : Progress n :=
  ⟨o.1.leave, match o with
    | ⟨.value _ _, hc⟩ => hc
    | ⟨.fault _ _, _⟩ => trivial⟩

/-- Reading goes on after a value, which has made progress. -/
@[inline] def andThen (o : Progress n) (next : Decimal → (c : Cursor) → c.left < n → Progress m) :
    Progress m :=
  match o with
  | ⟨.value v c, h⟩ => next v c h
  | ⟨.fault e c, _⟩ => ⟨.fault e c, trivial⟩

/-- The result of an operation, at the cursor behind its last operand. -/
@[inline] def of (result : Except Fault Decimal) (c : Cursor) (h : c.left < n) : Progress n :=
  match result with
  | .ok v => ⟨.value v c, h⟩
  | .error e => ⟨.fault e c, trivial⟩

theorem val_andThen (o : Progress n) (next : Decimal → (c : Cursor) → c.left < n → Progress m)
    (next' : Decimal → Cursor → Outcome) (h : ∀ v c hc, (next v c hc).1 = next' v c) :
    (o.andThen next).1 = o.1.andThen next' := by
  obtain ⟨⟨v, c⟩ | ⟨e, c⟩, ho⟩ := o
  · exact h v c ho
  · rfl

theorem val_of (result : Except Fault Decimal) (c : Cursor) (h : c.left < n) :
    (of result c h).1 = .of result c := by
  cases result <;> rfl

end Progress

end InfixCalculator
