import InfixCalculator.Proofs.Expression.Induction
import Mathlib.Data.List.Basic

/-! # Derivations of the grammar

A parse tree has one constructor for each way of applying a rule. Nothing here reads a text; the
trees say what the texts of the grammar are and what they mean.

* `Tree`: the parse trees, with `Tree.text`, `Tree.depth` and `Tree.value`.
* `Tree.valueWithin`: the value under a limit of nesting; `valueWithin_of_depth_le`,
  `valueWithin_of_lt_depth`: it is the value if the tree is not too deep, and an error if it is.
* `Tree.maximal`: literals are not continued by what follows them.
* `Tree.unique`: a text has at most one tree, and one prefix that has a tree which nothing
  continues.
* `Derivation`: the trees of a whole text. -/

namespace InfixCalculator

/-! ### Operators and literals -/

/-- A sign before an operand, or between two terms. -/
inductive Sign where
  | plus
  | minus
deriving DecidableEq

/-- An operator between two factors. -/
inductive Scale where
  | times
  | divided
deriving DecidableEq

namespace Sign

/-- How a sign is written. -/
def char : Sign → Char
  | plus => '+'
  | minus => '-'

/-- The value behind a sign. -/
def apply : Sign → Decimal → Decimal
  | plus, v => v
  | minus, v => v.neg

/-- The value of a sum or difference. -/
def combine (k : Calculator) : Sign → Decimal → Decimal → Except ErrorKind Decimal
  | plus, v, w => (v.add k.precision w).mapError fun _ => .numericOverflow
  | minus, v, w => (v.sub k.precision w).mapError fun _ => .numericOverflow

theorem char_mem (s : Sign) : s.char ∈ ['+', '-'] := by cases s <;> simp [char]

theorem exists_of_mem {x : Char} (h : x ∈ ['+', '-']) : ∃ s : Sign, x = s.char := by
  simp only [List.mem_cons, List.not_mem_nil, or_false] at h
  rcases h with rfl | rfl
  · exact ⟨plus, rfl⟩
  · exact ⟨minus, rfl⟩

theorem char_injective {s s' : Sign} (h : s.char = s'.char) : s = s' := by
  cases s <;> cases s' <;> simp_all [char]

end Sign

namespace Scale

/-- How an operator is written. -/
def char : Scale → Char
  | times => '*'
  | divided => '/'

/-- The value of a product or quotient. -/
def combine (k : Calculator) : Scale → Decimal → Decimal → Except ErrorKind Decimal
  | times, v, w => (v.mul k.precision w).mapError fun _ => .numericOverflow
  | divided, v, w =>
    if w.isZero then .error .divideByZero
    else (v.div k.precision w).mapError fun _ => .numericOverflow

theorem char_mem (s : Scale) : s.char ∈ ['*', '/'] := by cases s <;> simp [char]

theorem exists_of_mem {x : Char} (h : x ∈ ['*', '/']) : ∃ s : Scale, x = s.char := by
  simp only [List.mem_cons, List.not_mem_nil, or_false] at h
  rcases h with rfl | rfl
  · exact ⟨times, rfl⟩
  · exact ⟨divided, rfl⟩

theorem char_injective {s s' : Scale} (h : s.char = s'.char) : s = s' := by
  cases s <;> cases s' <;> simp_all [char]

end Scale

/-- A number literal: digits around at most one point, and at least one digit. -/
structure Literal where
  text : List Char
  chars : ∀ x ∈ text, isNumberChar x = true
  points : text.count point ≤ 1
  digit : ∃ x ∈ text, x ≠ point

namespace Literal

/-- The value of a literal; a digit may be without one. -/
def value (l : Literal) : Except ErrorKind Decimal :=
  match Decimal.ofPlain? l.text with
  | some v => .ok v
  | none => .error .invalidNumber

theorem ext_text {l l' : Literal} (h : l.text = l'.text) : l = l' := by
  cases l; cases l'; cases h; rfl

theorem exists_head (l : Literal) : ∃ x xs, l.text = x :: xs ∧ isNumberChar x = true := by
  obtain ⟨y, hy, -⟩ := l.digit
  obtain ⟨x, xs, h⟩ := List.exists_cons_of_ne_nil (List.ne_nil_of_mem hy)
  exact ⟨x, xs, h, l.chars x (by rw [h]; exact List.mem_cons_self)⟩

end Literal

/-! ### Parse trees -/

/-- The parse trees of each rule. -/
inductive Tree : Rule → Type
  | expression (first : Tree .term) (more : Tree .sumTail) : Tree .expression
  | noSummand : Tree .sumTail
  | summand (s : Sign) (t : Tree .term) (more : Tree .sumTail) : Tree .sumTail
  | term (first : Tree .exponent) (more : Tree .productTail) : Tree .term
  | noFactor : Tree .productTail
  | factor (s : Scale) (t : Tree .exponent) (more : Tree .productTail) : Tree .productTail
  | base (p : Tree .primary) : Tree .exponent
  | power (p : Tree .primary) (e : Tree .exponent) : Tree .exponent
  | unsigned (o : Tree .operand) : Tree .primary
  | signed (s : Sign) (o : Tree .operand) : Tree .primary
  | root (p : Tree .primary) : Tree .operand
  | group (e : Tree .expression) : Tree .operand
  | number (l : Literal) : Tree .operand

namespace Tree

variable {r : Rule}

/-- The characters at the leaves. -/
def text : {r : Rule} → Tree r → List Char
  | _, expression first more => first.text ++ more.text
  | _, noSummand => []
  | _, summand s t more => s.char :: (t.text ++ more.text)
  | _, term first more => first.text ++ more.text
  | _, noFactor => []
  | _, factor s t more => s.char :: (t.text ++ more.text)
  | _, base p => p.text
  | _, power p e => p.text ++ '^' :: e.text
  | _, unsigned o => o.text
  | _, signed s o => s.char :: o.text
  | _, root p => rootSign :: p.text
  | _, group e => openParen :: (e.text ++ [closeParen])
  | _, number l => l.text

/-- The largest number of groups, roots and right sides of powers inside each other. -/
def depth : {r : Rule} → Tree r → Nat
  | _, expression first more => max first.depth more.depth
  | _, noSummand => 0
  | _, summand _ t more => max t.depth more.depth
  | _, term first more => max first.depth more.depth
  | _, noFactor => 0
  | _, factor _ t more => max t.depth more.depth
  | _, base p => p.depth
  | _, power p e => max p.depth (e.depth + 1)
  | _, unsigned o => o.depth
  | _, signed _ o => o.depth
  | _, root p => p.depth + 1
  | _, group e => e.depth + 1
  | _, number _ => 0

/-- **The value of a tree**, operands before operators and from left to right. A repetition folds
its operands into the value `v` before it; the other trees do not look at `v`. -/
def value (k : Calculator) : {r : Rule} → Decimal → Tree r → Except ErrorKind Decimal
  | _, v, expression first more => do more.value k (← first.value k v)
  | _, v, noSummand => .ok v
  | _, v, summand s t more => do more.value k (← s.combine k v (← t.value k v))
  | _, v, term first more => do more.value k (← first.value k v)
  | _, v, noFactor => .ok v
  | _, v, factor s t more => do more.value k (← s.combine k v (← t.value k v))
  | _, v, base p => p.value k v
  | _, v, power p e => do
    let b ← p.value k v
    (b.power k.functions (← e.value k v)).mapError PowerError.kind
  | _, v, unsigned o => o.value k v
  | _, v, signed s o => (o.value k v).map s.apply
  | _, v, root p => do ((← p.value k v).squareRoot k.functions).mapError PowerError.kind
  | _, v, group e => e.value k v
  | _, _, number l => l.value

/-- What is read inside one more level, if there is room for it. -/
def deeper {α : Type} (room : Nat) (inside : Nat → Except ErrorKind α) : Except ErrorKind α :=
  match room with
  | 0 => .error .nestingTooDeep
  | room + 1 => inside room

/-- The value of a tree if no more than `room` levels may be open inside each other: where one more
is to be opened, there is none. -/
def valueWithin (k : Calculator) :
    {r : Rule} → Nat → Decimal → Tree r → Except ErrorKind Decimal
  | _, room, v, expression first more => do
    more.valueWithin k room (← first.valueWithin k room v)
  | _, _, v, noSummand => .ok v
  | _, room, v, summand s t more => do
    more.valueWithin k room (← s.combine k v (← t.valueWithin k room v))
  | _, room, v, term first more => do
    more.valueWithin k room (← first.valueWithin k room v)
  | _, _, v, noFactor => .ok v
  | _, room, v, factor s t more => do
    more.valueWithin k room (← s.combine k v (← t.valueWithin k room v))
  | _, room, v, base p => p.valueWithin k room v
  | _, room, v, power p e => do
    let b ← p.valueWithin k room v
    let w ← deeper room fun room => e.valueWithin k room v
    (b.power k.functions w).mapError PowerError.kind
  | _, room, v, unsigned o => o.valueWithin k room v
  | _, room, v, signed s o => (o.valueWithin k room v).map s.apply
  | _, room, v, root p => do
    let w ← deeper room fun room => p.valueWithin k room v
    (w.squareRoot k.functions).mapError PowerError.kind
  | _, room, v, group e => deeper room fun room => e.valueWithin k room v
  | _, _, _, number l => l.value

/-- Only repetitions can be empty. -/
theorem text_ne_nil (t : Tree r) (hsum : r ≠ .sumTail) (hproduct : r ≠ .productTail) :
    t.text ≠ [] := by
  induction t with
  | expression first more ih | term first more ih =>
    exact fun h => ih nofun nofun (List.append_eq_nil_iff.mp h).1
  | noSummand | summand => exact absurd rfl hsum
  | noFactor | factor => exact absurd rfl hproduct
  | base p ih | unsigned o ih => exact ih nofun nofun
  | power p e => exact List.append_ne_nil_of_right_ne_nil _ (List.cons_ne_nil _ _)
  | signed | root | group => exact List.cons_ne_nil _ _
  | number l =>
    obtain ⟨x, hx, -⟩ := l.digit
    exact List.ne_nil_of_mem hx

/-! ### The limit of nesting -/

variable {k : Calculator}

theorem valueWithin_of_depth_le (t : Tree r) {room : Nat} (v : Decimal) (h : t.depth ≤ room) :
    t.valueWithin k room v = t.value k v := by
  induction t generalizing room v with
  | expression first more ih1 ih2 | term first more ih1 ih2 =>
    rw [depth, Nat.max_le] at h
    simp only [valueWithin, value, ih1 v h.1, fun w => ih2 w h.2]
  | summand s t more ih1 ih2 | factor s t more ih1 ih2 =>
    rw [depth, Nat.max_le] at h
    simp only [valueWithin, value, ih1 v h.1, fun w => ih2 w h.2]
  | noSummand | noFactor | number => rfl
  | base p ih | unsigned o ih => exact ih v h
  | signed s o ih => simp only [valueWithin, value, ih v h]
  | power p e ih1 ih2 =>
    rw [depth, Nat.max_le] at h
    obtain ⟨n, rfl⟩ := Nat.exists_eq_add_of_le' (Nat.lt_of_lt_of_le (Nat.succ_pos _) h.2)
    simp only [valueWithin, value, deeper, ih1 v h.1, ih2 v (Nat.le_of_succ_le_succ h.2)]
  | root p ih | group p ih =>
    obtain ⟨n, rfl⟩ := Nat.exists_eq_add_of_le' (Nat.lt_of_lt_of_le (Nat.succ_pos _) h)
    simp only [valueWithin, value, deeper, ih v (Nat.le_of_succ_le_succ h)]

/-- The limit ends an evaluation that has not ended by an error of its own before. -/
def CutShort (within value : Except ErrorKind Decimal) : Prop :=
  ∃ e, within = .error e ∧ (e = .nestingTooDeep ∨ value = .error e)

theorem CutShort.bind {m m' : Except ErrorKind Decimal} (h : CutShort m m')
    (f f' : Decimal → Except ErrorKind Decimal) : CutShort (m >>= f) (m' >>= f') := by
  obtain ⟨e, rfl, rfl | rfl⟩ := h
  · exact ⟨_, rfl, .inl rfl⟩
  · exact ⟨_, rfl, .inr rfl⟩

theorem CutShort.bind_right (m : Except ErrorKind Decimal)
    {f f' : Decimal → Except ErrorKind Decimal} (h : ∀ w, CutShort (f w) (f' w)) :
    CutShort (m >>= f) (m >>= f') := by
  cases m with
  | error e => exact ⟨e, rfl, .inr rfl⟩
  | ok w => exact h w

theorem CutShort.deeper {room : Nat} {inside : Nat → Except ErrorKind Decimal}
    {value : Except ErrorKind Decimal} (h : ∀ n, room = n + 1 → CutShort (inside n) value) :
    CutShort (deeper room inside) value := by
  cases room with
  | zero => exact ⟨_, rfl, .inl rfl⟩
  | succ n => exact h n rfl

theorem CutShort.map {m m' : Except ErrorKind Decimal} (h : CutShort m m')
    (f : Decimal → Decimal) : CutShort (m.map f) (m'.map f) := by
  obtain ⟨e, rfl, rfl | rfl⟩ := h
  · exact ⟨_, rfl, .inl rfl⟩
  · exact ⟨_, rfl, .inr rfl⟩

/-- **A tree that is too deep has no value within the limit.** -/
theorem valueWithin_of_lt_depth (t : Tree r) {room : Nat} (v : Decimal) (h : room < t.depth) :
    CutShort (t.valueWithin k room v) (t.value k v) := by
  induction t generalizing room v with
  | expression first more ih1 ih2 | term first more ih1 ih2 =>
    rw [valueWithin, value]
    rcases Nat.lt_or_ge room first.depth with h1 | h1
    · exact (ih1 v h1).bind _ _
    · rw [valueWithin_of_depth_le first v h1]
      exact CutShort.bind_right _ fun w => ih2 w (by rw [depth] at h; omega)
  | summand s t more ih1 ih2 | factor s t more ih1 ih2 =>
    rw [valueWithin, value]
    rcases Nat.lt_or_ge room t.depth with h1 | h1
    · exact (ih1 v h1).bind _ _
    · rw [valueWithin_of_depth_le t v h1]
      refine CutShort.bind_right _ fun w => CutShort.bind_right _ fun x => ih2 x ?_
      rw [depth] at h
      omega
  | noSummand | noFactor | number => exact absurd h (Nat.not_lt_zero _)
  | base p ih | unsigned o ih => exact ih v h
  | signed s o ih => exact (ih v h).map _
  | power p e ih1 ih2 =>
    rw [valueWithin, value]
    rcases Nat.lt_or_ge room p.depth with h1 | h1
    · exact (ih1 v h1).bind _ _
    · rw [valueWithin_of_depth_le p v h1]
      refine CutShort.bind_right _ fun b => CutShort.bind (CutShort.deeper fun n hn => ?_) _ _
      exact ih2 v (by rw [depth] at h; omega)
  | root p ih =>
    rw [valueWithin, value]
    exact CutShort.bind (CutShort.deeper fun n hn => ih v (by rw [depth] at h; omega)) _ _
  | group e ih =>
    rw [valueWithin, value]
    exact CutShort.deeper fun n hn => ih v (by rw [depth] at h; omega)

end Tree

/-! ### What may follow -/

/-- The character would be read on by the rule, if it stood behind what the rule has read. -/
def Rule.continues : Rule → Char → Bool
  | .operand, x | .primary, x => isNumberChar x
  | .exponent, x => isNumberChar x || x = '^'
  | .term, x | .productTail, x => isNumberChar x || x = '^' || x = '*' || x = '/'
  | .expression, x | .sumTail, x =>
    isNumberChar x || x = '^' || x = '*' || x = '/' || x = '+' || x = '-'

/-- What follows does not continue what the rule has read. -/
def Rule.EndsBefore (r : Rule) (after : List Char) : Prop :=
  ∀ x, after.head? = some x → r.continues x = false

theorem Rule.EndsBefore.nil (r : Rule) : r.EndsBefore [] := nofun

theorem Rule.endsBefore_cons {r : Rule} {x : Char} {xs : List Char} :
    r.EndsBefore (x :: xs) ↔ r.continues x = false := by
  simp [EndsBefore]

/-- A rule further down the grammar is continued by fewer characters. -/
theorem Rule.EndsBefore.mono {r r' : Rule} {after : List Char} (h : r.EndsBefore after)
    (hr : ∀ x, r.continues x = false → r'.continues x = false) : r'.EndsBefore after :=
  fun x hx => hr x (h x hx)

theorem Rule.EndsBefore.primary {after : List Char} (h : Rule.exponent.EndsBefore after) :
    Rule.primary.EndsBefore after :=
  h.mono fun x => by simp [Rule.continues]; tauto

theorem Sign.not_endsBefore (s : Sign) (xs : List Char) :
    ¬ Rule.sumTail.EndsBefore (s.char :: xs) := by
  rw [Rule.endsBefore_cons]
  cases s <;> decide

theorem Scale.not_endsBefore (s : Scale) (xs : List Char) :
    ¬ Rule.productTail.EndsBefore (s.char :: xs) := by
  rw [Rule.endsBefore_cons]
  cases s <;> decide

namespace Tree

variable {r : Rule} {after : List Char}

theorem endsBefore_sumTail (more : Tree .sumTail) (h : Rule.sumTail.EndsBefore after) :
    Rule.term.EndsBefore (more.text ++ after) := by
  cases more with
  | noSummand => exact h.mono fun x => by simp [Rule.continues]; tauto
  | summand s t more =>
    refine Rule.endsBefore_cons.mpr ?_
    cases s <;> decide

theorem endsBefore_productTail (more : Tree .productTail) (h : Rule.productTail.EndsBefore after) :
    Rule.exponent.EndsBefore (more.text ++ after) := by
  cases more with
  | noFactor => exact h.mono fun x => by simp [Rule.continues]; tauto
  | factor s t more =>
    refine Rule.endsBefore_cons.mpr ?_
    cases s <;> decide

/-- Digits and points end where no more of them follow. -/
theorem takeWhile_run {run : List Char} (hrun : ∀ x ∈ run, isNumberChar x = true)
    (h : Rule.operand.EndsBefore after) : (run ++ after).takeWhile isNumberChar = run := by
  rw [List.takeWhile_append_of_pos hrun]
  cases after with
  | nil => simp
  | cons x xs => simp [show isNumberChar x = false from Rule.endsBefore_cons.mp h]

/-- Where a literal ends, the run of digits and points ends. -/
theorem takeWhile_literal (l : Literal)
    (h : Rule.operand.EndsBefore after) : (l.text ++ after).takeWhile isNumberChar = l.text :=
  takeWhile_run l.chars h

/-- No literal of the tree is continued by what stands behind it: literals are runs of digits and
points that are as long as possible. Behind the tree stands `after`. -/
def Maximal : {r : Rule} → Tree r → List Char → Prop
  | _, expression first more, after => first.Maximal (more.text ++ after) ∧ more.Maximal after
  | _, noSummand, _ => True
  | _, summand _ t more, after => t.Maximal (more.text ++ after) ∧ more.Maximal after
  | _, term first more, after => first.Maximal (more.text ++ after) ∧ more.Maximal after
  | _, noFactor, _ => True
  | _, factor _ t more, after => t.Maximal (more.text ++ after) ∧ more.Maximal after
  | _, base p, after => p.Maximal after
  | _, power p e, after => p.Maximal ('^' :: (e.text ++ after)) ∧ e.Maximal after
  | _, unsigned o, after => o.Maximal after
  | _, signed _ o, after => o.Maximal after
  | _, root p, after => p.Maximal after
  | _, group e, after => e.Maximal (closeParen :: after)
  | _, number _, after => ∀ x, after.head? = some x → isNumberChar x = false

theorem maximal (t : Tree r) (h : r.EndsBefore after) : t.Maximal after := by
  induction t generalizing after with
  | expression first more ih1 ih2 => exact ⟨ih1 (endsBefore_sumTail more h), ih2 h⟩
  | summand s t more ih1 ih2 => exact ⟨ih1 (endsBefore_sumTail more h), ih2 h⟩
  | term first more ih1 ih2 => exact ⟨ih1 (endsBefore_productTail more h), ih2 h⟩
  | factor s t more ih1 ih2 => exact ⟨ih1 (endsBefore_productTail more h), ih2 h⟩
  | noSummand | noFactor => exact trivial
  | base p ih => exact ih h.primary
  | power p e ih1 ih2 => exact ⟨ih1 (Rule.endsBefore_cons.mpr (by decide)), ih2 h⟩
  | unsigned o ih | signed s o ih | root p ih => exact ih h
  | group e ih => exact ih (Rule.endsBefore_cons.mpr (by decide))
  | number l => exact h

/-! ### Unique reading -/

/-- An operand does not begin like a sign. -/
theorem head_operand (o : Tree .operand) : ∃ x xs, o.text = x :: xs ∧ x ∉ ['+', '-'] := by
  cases o with
  | root p => exact ⟨rootSign, p.text, rfl, by decide⟩
  | group e => exact ⟨openParen, e.text ++ [closeParen], rfl, by decide⟩
  | number l =>
    obtain ⟨x, xs, h, hx⟩ := l.exists_head
    refine ⟨x, xs, h, fun hmem => ?_⟩
    obtain ⟨s, rfl⟩ := Sign.exists_of_mem hmem
    cases s <;> exact absurd hx (by decide)

/-- A literal does not begin like a root or a group. -/
theorem head_literal {l : Literal} {x : Char} {xs ys : List Char} (hx : isNumberChar x = false) :
    l.text ++ ys ≠ x :: xs := by
  obtain ⟨y, zs, h, hy⟩ := l.exists_head
  rw [h, List.cons_append]
  rintro h'
  rw [(List.cons.inj h').1, hx] at hy
  cases hy

/-- **Unique reading.** What begins with a tree that nothing continues begins with no other such
tree. -/
theorem unique (t t' : Tree r) {after after' : List Char}
    (h : t.text ++ after = t'.text ++ after') (hend : r.EndsBefore after)
    (hend' : r.EndsBefore after') : t = t' ∧ after = after' := by
  induction t generalizing after after' with
  | expression first more ih1 ih2 =>
    cases t' with
    | expression first' more' =>
      simp only [text, List.append_assoc] at h
      obtain ⟨rfl, h1⟩ := ih1 _ h (endsBefore_sumTail more hend) (endsBefore_sumTail more' hend')
      obtain ⟨rfl, h2⟩ := ih2 _ h1 hend hend'
      exact ⟨rfl, h2⟩
  | term first more ih1 ih2 =>
    cases t' with
    | term first' more' =>
      simp only [text, List.append_assoc] at h
      obtain ⟨rfl, h1⟩ :=
        ih1 _ h (endsBefore_productTail more hend) (endsBefore_productTail more' hend')
      obtain ⟨rfl, h2⟩ := ih2 _ h1 hend hend'
      exact ⟨rfl, h2⟩
  | noSummand =>
    cases t' with
    | noSummand => exact ⟨rfl, h⟩
    | summand s t more =>
      simp only [text, List.nil_append, List.cons_append] at h
      exact absurd (h ▸ hend) (s.not_endsBefore _)
  | summand s t more ih1 ih2 =>
    cases t' with
    | noSummand =>
      simp only [text, List.nil_append, List.cons_append] at h
      exact absurd (h ▸ hend') (s.not_endsBefore _)
    | summand s' t' more' =>
      simp only [text, List.cons_append, List.append_assoc, List.cons.injEq] at h
      obtain ⟨hs, h⟩ := h
      obtain rfl := Sign.char_injective hs
      obtain ⟨rfl, h1⟩ := ih1 _ h (endsBefore_sumTail more hend) (endsBefore_sumTail more' hend')
      obtain ⟨rfl, h2⟩ := ih2 _ h1 hend hend'
      exact ⟨rfl, h2⟩
  | noFactor =>
    cases t' with
    | noFactor => exact ⟨rfl, h⟩
    | factor s t more =>
      simp only [text, List.nil_append, List.cons_append] at h
      exact absurd (h ▸ hend) (s.not_endsBefore _)
  | factor s t more ih1 ih2 =>
    cases t' with
    | noFactor =>
      simp only [text, List.nil_append, List.cons_append] at h
      exact absurd (h ▸ hend') (s.not_endsBefore _)
    | factor s' t' more' =>
      simp only [text, List.cons_append, List.append_assoc, List.cons.injEq] at h
      obtain ⟨hs, h⟩ := h
      obtain rfl := Scale.char_injective hs
      obtain ⟨rfl, h1⟩ :=
        ih1 _ h (endsBefore_productTail more hend) (endsBefore_productTail more' hend')
      obtain ⟨rfl, h2⟩ := ih2 _ h1 hend hend'
      exact ⟨rfl, h2⟩
  | base p ih =>
    cases t' with
    | base p' =>
      obtain ⟨rfl, h1⟩ := ih _ h hend.primary hend'.primary
      exact ⟨rfl, h1⟩
    | power p' e' =>
      simp only [text, List.append_assoc, List.cons_append] at h
      obtain ⟨-, h1⟩ := ih _ h hend.primary (Rule.endsBefore_cons.mpr (by decide))
      rw [h1] at hend
      exact absurd (Rule.endsBefore_cons.mp hend) (by decide)
  | power p e ih1 ih2 =>
    have hcaret : ∀ xs, Rule.primary.EndsBefore ('^' :: xs) := fun xs =>
      Rule.endsBefore_cons.mpr (by decide)
    simp only [text, List.append_assoc, List.cons_append] at h
    cases t' with
    | base p' =>
      obtain ⟨-, h1⟩ := ih1 _ h (hcaret _) hend'.primary
      rw [← h1] at hend'
      exact absurd (Rule.endsBefore_cons.mp hend') (by decide)
    | power p' e' =>
      simp only [text, List.append_assoc, List.cons_append] at h
      obtain ⟨rfl, h1⟩ := ih1 _ h (hcaret _) (hcaret _)
      obtain ⟨rfl, h2⟩ := ih2 _ (List.cons.inj h1).2 hend hend'
      exact ⟨rfl, h2⟩
  | unsigned o ih =>
    cases t' with
    | unsigned o' =>
      obtain ⟨rfl, h1⟩ := ih _ h hend hend'
      exact ⟨rfl, h1⟩
    | signed s o' =>
      obtain ⟨x, xs, ho, hx⟩ := head_operand o
      simp only [text, ho, List.cons_append, List.cons.injEq] at h
      exact absurd (h.1 ▸ s.char_mem) hx
  | signed s o ih =>
    cases t' with
    | unsigned o' =>
      obtain ⟨x, xs, ho, hx⟩ := head_operand o'
      simp only [text, ho, List.cons_append, List.cons.injEq] at h
      exact absurd (h.1 ▸ s.char_mem) hx
    | signed s' o' =>
      simp only [text, List.cons_append, List.cons.injEq] at h
      obtain ⟨hs, h⟩ := h
      obtain rfl := Sign.char_injective hs
      obtain ⟨rfl, h1⟩ := ih _ h hend hend'
      exact ⟨rfl, h1⟩
  | root p ih =>
    cases t' with
    | root p' =>
      obtain ⟨rfl, h1⟩ := ih _ (List.cons.inj h).2 hend hend'
      exact ⟨rfl, h1⟩
    | group e' => exact absurd (List.cons.inj h).1 (by decide)
    | number l' => exact absurd h.symm (head_literal (by decide))
  | group e ih =>
    have hclose : ∀ xs, Rule.expression.EndsBefore (closeParen :: xs) := fun xs =>
      Rule.endsBefore_cons.mpr (by decide)
    cases t' with
    | root p' => exact absurd (List.cons.inj h).1 (by decide)
    | group e' =>
      simp only [text, List.append_assoc, List.cons_append, List.nil_append, List.cons.injEq,
        true_and] at h
      obtain ⟨rfl, h1⟩ := ih _ h (hclose _) (hclose _)
      exact ⟨rfl, (List.cons.inj h1).2⟩
    | number l' => exact absurd h.symm (head_literal (by decide))
  | number l =>
    cases t' with
    | root p' => exact absurd h (head_literal (by decide))
    | group e' => exact absurd h (head_literal (by decide))
    | number l' =>
      have htext : l.text = l'.text := by
        rw [← takeWhile_literal l hend, ← takeWhile_literal l' hend', ← text, h, text]
      obtain rfl := Literal.ext_text htext
      exact ⟨rfl, List.append_cancel_left h⟩

end Tree

/-! ### Derivations of a text -/

/-- **A derivation** of a text as an expression. -/
structure Derivation (text : List Char) where
  tree : Tree .expression
  text_eq : tree.text = text
  maximal : tree.Maximal []

namespace Derivation

variable {text : List Char}

/-- The largest number of groups, roots and right sides of powers inside each other. -/
def depth (d : Derivation text) : ℕ := d.tree.depth

/-- What the text denotes: the value of its tree, with nothing before it. -/
def value (k : Calculator) (d : Derivation text) : Except ErrorKind Decimal :=
  d.tree.value k (.ofNat 0)

theorem text_ne_nil (d : Derivation text) : text ≠ [] := by
  rw [← d.text_eq]
  exact d.tree.text_ne_nil nofun nofun

/-- Any tree of the text makes a derivation. -/
def ofTree (t : Tree .expression) (h : t.text = text) : Derivation text :=
  ⟨t, h, t.maximal (Rule.EndsBefore.nil _)⟩

/-- **The grammar is unambiguous.** -/
instance instSubsingleton (text : List Char) : Subsingleton (Derivation text) where
  allEq d d' := by
    have h : d.tree.text ++ [] = d'.tree.text ++ [] := by rw [d.text_eq, d'.text_eq]
    obtain ⟨ht, -⟩ := Tree.unique _ _ h (Rule.EndsBefore.nil _) (Rule.EndsBefore.nil _)
    cases d; cases d'; cases ht; rfl

end Derivation

end InfixCalculator
