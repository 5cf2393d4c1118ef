import InfixCalculator.Proofs.Decimal.Quotient
import InfixCalculator.Proofs.Expression.Tree
import Mathlib.Data.List.TakeWhile

/-! # The rules read the grammar

* `Outcome.Yields`: an outcome as seen by the user: a value and where reading stopped, or the kind
  of an error.
* `Calculator.read_yields`: where a tree stands that nothing continues, a rule yields the value of
  the tree.
* `Calculator.exists_tree_of_value`: where a rule reads a value, it has read a tree of this value. -/

namespace InfixCalculator

/-! ### Kinds of fault -/

/-- The kind of error that a fault is for the user. Of the signals, only an overflow becomes one. -/
def Fault.kind : Fault → ErrorKind
  | .problem p => p.kind
  | .signal _ => .numericOverflow

theorem Sign.combine_eq (k : Calculator) (s : Sign) (v w : Decimal) :
    (k.addOrSub s.char v w).mapError Fault.kind = s.combine k v w := by
  cases s with
  | plus =>
    rw [Calculator.addOrSub, if_pos (by rfl), combine, Calculator.arithmeticResult]
    cases v.add k.precision w <;> rfl
  | minus =>
    rw [Calculator.addOrSub, if_neg (by decide), combine, Calculator.arithmeticResult]
    cases v.sub k.precision w <;> rfl

theorem Scale.combine_eq (k : Calculator) (s : Scale) (place : Cursor) (v w : Decimal) :
    (k.mulOrDiv s.char place v w).mapError Fault.kind = s.combine k v w := by
  cases s with
  | times =>
    rw [Calculator.mulOrDiv, if_pos (by rfl), combine, Calculator.arithmeticResult]
    cases v.mul k.precision w <;> rfl
  | divided =>
    rw [Calculator.mulOrDiv, if_neg (by decide), combine, Calculator.arithmeticResult]
    split_ifs
    · rfl
    · cases v.div k.precision w <;> rfl

theorem powerResult_kind (m : Except PowerError Decimal) :
    (Calculator.powerResult m).mapError Fault.kind = m.mapError PowerError.kind := by
  cases m <;> rfl

theorem Sign.signed_char (s : Sign) : Calculator.signed s.char = s.apply := by
  funext v
  cases s with
  | plus => rw [Calculator.signed, if_neg (by decide), apply]
  | minus => rw [Calculator.signed, if_pos (by rfl), apply]

/-! ### Outcomes -/

namespace Outcome

variable {o : Outcome} {m : Except ErrorKind Decimal} {c d stop : Cursor}

/-- **What an outcome is for the user**: the value, with reading stopped at `stop`, or the kind of
error. -/
structure Yields (o : Outcome) (m : Except ErrorKind Decimal) (stop : Cursor) : Prop where
  of_ok : ∀ w, m = .ok w → o = .value w stop
  of_error : ∀ e, m = .error e → ∃ f d, o = .fault f d ∧ f.kind = e

theorem yields_value (v : Decimal) (c : Cursor) : (value v c).Yields (.ok v) c :=
  ⟨fun w h => by cases h; rfl, nofun⟩

theorem yields_problem (p : Problem) (c stop : Cursor) :
    (problem p c).Yields (.error p.kind) stop :=
  ⟨nofun, fun e h => by cases h; exact ⟨_, _, rfl, rfl⟩⟩

theorem yields_of (result : Except Fault Decimal) (c : Cursor) :
    (of result c).Yields (result.mapError Fault.kind) c := by
  cases result with
  | ok v => exact yields_value v c
  | error f => exact ⟨nofun, fun e h => by cases h; exact ⟨_, _, rfl, rfl⟩⟩

theorem Yields.andThen (h : o.Yields m d) {next : Decimal → Cursor → Outcome}
    {f : Decimal → Except ErrorKind Decimal}
    (hn : ∀ w, (next w d).Yields (f w) stop) : (o.andThen next).Yields (m >>= f) stop := by
  cases m with
  | ok w =>
    rw [h.of_ok w rfl]
    exact hn w
  | error e =>
    obtain ⟨g, c, rfl, hg⟩ := h.of_error e rfl
    refine ⟨nofun, fun e' he' => ⟨g, c, rfl, ?_⟩⟩
    cases he'
    exact hg

theorem Yields.leave (h : o.Yields m d) : o.leave.Yields m d.leave := by
  refine ⟨fun w hw => ?_, fun e he => ?_⟩
  · rw [h.of_ok w hw]; rfl
  · obtain ⟨g, c, rfl, hg⟩ := h.of_error e he
    exact ⟨g, c.leave, rfl, hg⟩

theorem Yields.map (h : o.Yields m d) (f : Decimal → Decimal) :
    (o.map f).Yields (m.map f) d := by
  cases m with
  | ok w =>
    rw [h.of_ok w rfl]
    exact yields_value _ _
  | error e =>
    obtain ⟨g, c, rfl, hg⟩ := h.of_error e rfl
    exact ⟨nofun, fun e' he' => by cases he'; exact ⟨g, c, rfl, hg⟩⟩

/-- One level further inside, there is one level less to open. -/
theorem yields_within {inside : Cursor → Outcome} {within : ℕ → Except ErrorKind Decimal} {room : ℕ}
    (hroom : c.Room room)
    (h : ∀ n, c.enter.Room n → (inside c.enter).Yields (within n) d.enter) :
    (c.within inside).Yields (Tree.deeper room within) d := by
  unfold Cursor.within
  cases room with
  | zero =>
    rw [hroom.refuse]
    exact yields_problem _ _ _
  | succ n =>
    obtain ⟨henter, hroom'⟩ := hroom.enter
    rw [henter]
    exact (h n hroom').leave

end Outcome

/-! ### Reading a tree -/

namespace Calculator

open Outcome

variable {k : Calculator} {r : Rule} {c d : Cursor} {v w : Decimal} {room : ℕ}

/-- A literal that nothing continues is read as a whole. -/
theorem number_yields (l : Literal) (hspan : c.Spans l.text d)
    (hend : Rule.operand.EndsBefore d.rest) : c.number.Yields l.value d := by
  have hlit : c.literal = l.text := by
    rw [Cursor.literal, hspan.rest, Tree.takeWhile_literal l hend]
  have hne : l.text ≠ [] := by
    obtain ⟨x, hx, -⟩ := l.digit
    exact List.ne_nil_of_mem hx
  have hpoint : l.text ≠ [point] := by
    intro h
    obtain ⟨x, hx, hne⟩ := l.digit
    rw [h, List.mem_singleton] at hx
    exact hne hx
  unfold Cursor.number
  simp only [hlit, ← hspan.stop]
  rw [if_neg hne, if_neg (not_lt.mpr l.points), if_neg hpoint, Literal.value]
  cases Decimal.ofPlain? l.text with
  | some v => exact yields_value _ _
  | none => exact yields_problem _ _ _

/-- A group is read as a whole, whatever follows it, if the expression in it is. -/
theorem group_yields {t : Tree .expression}
    (ht : ∀ {c d n}, c.Spans t.text d → Rule.expression.EndsBefore d.rest → c.Room n →
      (k.expression c).Yields (t.valueWithin k n v) d)
    (hspan : c.Spans (Tree.group t).text d) (hroom : c.Room room) :
    (k.operand c).Yields ((Tree.group t).valueWithin k room v) d := by
  obtain ⟨e, hs, haccept, hreject⟩ := hspan.uncons
  have haccept := haccept [openParen] (by decide)
  have hroom' := (Cursor.spans_of_accept? haccept).room hroom
  obtain ⟨f, h1, hclose⟩ := hs.split
  obtain ⟨g, hg, haccept', -⟩ := hclose.uncons
  have hend : Rule.expression.EndsBefore f.rest := by
    rw [hclose.rest]
    exact Rule.endsBefore_cons.mpr (by decide)
  rw [operand_eq_within, hreject [rootSign] (by decide), haccept, Tree.valueWithin,
    ← bind_pure (Tree.deeper _ _)]
  refine (yields_within hroom' fun n hn => ht h1.enter hend hn).andThen fun x => ?_
  rw [haccept' [closeParen] (by decide), hg.stop]
  exact yields_value _ _

/-- **Completeness**: where a tree stands that nothing continues, the rule reads the tree, and its
outcome is the value of the tree within the levels that are left. -/
theorem read_yields (t : Tree r) (hspan : c.Spans t.text d) (hend : r.EndsBefore d.rest)
    (hroom : c.Room room) : (k.read r v c).Yields (t.valueWithin k room v) d := by
  induction t generalizing v c d room with
  | expression first more ih1 ih2 =>
    obtain ⟨e, h1, h2⟩ := hspan.split
    rw [read, expression_eq, Tree.valueWithin]
    refine (ih1 (v := v) h1 ?_ hroom).andThen fun w => ih2 h2 hend (h1.room hroom)
    rw [h2.rest]
    exact Tree.endsBefore_sumTail more hend
  | term first more ih1 ih2 =>
    obtain ⟨e, h1, h2⟩ := hspan.split
    rw [read, term_eq, Tree.valueWithin]
    refine (ih1 (v := v) h1 ?_ hroom).andThen fun w => ih2 h2 hend (h1.room hroom)
    rw [h2.rest]
    exact Tree.endsBefore_productTail more hend
  | noSummand =>
    have haccept : c.accept? ['+', '-'] = none := Cursor.accept?_eq_none_iff.mpr fun x hx hmem => by
      obtain ⟨s, rfl⟩ := Sign.exists_of_mem hmem
      rw [hspan.rest] at hx
      exact absurd (hend _ hx) (by cases s <;> decide)
    rw [read, sumTail_eq, haccept, hspan.stop]
    exact yields_value _ _
  | noFactor =>
    have haccept : c.accept? ['*', '/'] = none := Cursor.accept?_eq_none_iff.mpr fun x hx hmem => by
      obtain ⟨s, rfl⟩ := Scale.exists_of_mem hmem
      rw [hspan.rest] at hx
      exact absurd (hend _ hx) (by cases s <;> decide)
    rw [read, productTail_eq, haccept, hspan.stop]
    exact yields_value _ _
  | summand s t more ih1 ih2 =>
    obtain ⟨e, hs, haccept, -⟩ := hspan.uncons
    obtain ⟨f, h1, h2⟩ := hs.split
    have hroom' := (Cursor.spans_of_accept? (haccept _ s.char_mem)).room hroom
    rw [read, sumTail_eq, haccept _ s.char_mem, Tree.valueWithin]
    refine (ih1 (v := v) h1 ?_ hroom').andThen fun w => ?_
    · rw [h2.rest]
      exact Tree.endsBefore_sumTail more hend
    · rw [← Sign.combine_eq]
      exact (yields_of _ _).andThen fun x => ih2 h2 hend (h1.room hroom')
  | factor s t more ih1 ih2 =>
    obtain ⟨e, hs, haccept, -⟩ := hspan.uncons
    obtain ⟨f, h1, h2⟩ := hs.split
    have hroom' := (Cursor.spans_of_accept? (haccept _ s.char_mem)).room hroom
    rw [read, productTail_eq, haccept _ s.char_mem, Tree.valueWithin]
    refine (ih1 (v := v) h1 ?_ hroom').andThen fun w => ?_
    · rw [h2.rest]
      exact Tree.endsBefore_productTail more hend
    · rw [← Scale.combine_eq k s c]
      exact (yields_of _ _).andThen fun x => ih2 h2 hend (h1.room hroom')
  | base p ih =>
    have haccept : d.accept? ['^'] = none := Cursor.accept?_eq_none_iff.mpr fun x hx hmem => by
      rw [List.mem_singleton] at hmem
      exact absurd (hend _ hx) (by rw [hmem]; decide)
    rw [read, exponent_eq_within, Tree.valueWithin, ← bind_pure (Tree.valueWithin k room v p)]
    refine (ih (v := v) hspan hend.primary hroom).andThen fun w => ?_
    rw [haccept]
    exact yields_value _ _
  | power p e ih1 ih2 =>
    obtain ⟨f, h1, hs⟩ := hspan.split
    have hcaret : Rule.primary.EndsBefore f.rest := by
      rw [hs.rest]
      exact Rule.endsBefore_cons.mpr (by decide)
    rw [read, exponent_eq_within, Tree.valueWithin]
    refine (ih1 (v := v) h1 hcaret hroom).andThen fun w => ?_
    obtain ⟨g, h2, haccept, -⟩ := hs.uncons
    have haccept := haccept ['^'] (by decide)
    have hroom' := (Cursor.spans_of_accept? haccept).room (h1.room hroom)
    rw [haccept]
    refine (yields_within hroom' fun n hn => ih2 (v := v) h2.enter hend hn).andThen fun x => ?_
    rw [← powerResult_kind]
    exact yields_of _ _
  | unsigned o ih =>
    have haccept : c.accept? ['+', '-'] = none := by
      obtain ⟨x, xs, ho, hx⟩ := o.head_operand
      rw [Tree.text, ho] at hspan
      obtain ⟨e, -, -, h⟩ := hspan.uncons
      exact h _ hx
    rw [read, primary_eq, haccept]
    exact ih (v := v) hspan hend hroom
  | signed s o ih =>
    obtain ⟨e, h1, haccept, -⟩ := hspan.uncons
    have hroom' := (Cursor.spans_of_accept? (haccept _ s.char_mem)).room hroom
    rw [read, primary_eq, haccept _ s.char_mem, Tree.valueWithin, ← Sign.signed_char]
    exact (ih (v := v) h1 hend hroom').map _
  | root p ih =>
    obtain ⟨e, h1, haccept, -⟩ := hspan.uncons
    have haccept := haccept [rootSign] (by decide)
    have hroom' := (Cursor.spans_of_accept? haccept).room hroom
    rw [read, operand_eq_within, haccept, Tree.valueWithin]
    refine (yields_within hroom' fun n hn => ih (v := v) h1.enter hend hn).andThen fun x => ?_
    rw [← powerResult_kind]
    exact yields_of _ _
  | group t ih => exact group_yields (fun h1 h2 h3 => ih h1 h2 h3) hspan hroom
  | number l =>
    obtain ⟨x, xs, hl, hx⟩ := l.exists_head
    have hreject : ∀ y, isNumberChar y = false → c.accept? [y] = none := fun y hy => by
      refine Cursor.accept?_cons_none (by rw [hspan.rest, Tree.text, hl, List.cons_append]) ?_
      rw [List.mem_singleton]
      rintro rfl
      rw [hx] at hy
      cases hy
    rw [read, operand_eq_within, hreject _ (by decide), hreject _ (by decide)]
    exact number_yields l hspan hend

/-! ### Finding a tree -/

/-- A literal is read where there is one, and as far as it goes. -/
theorem exists_literal (h : c.number = .value w d) :
    ∃ l : Literal, c.Spans l.text d ∧ (Tree.number l).Maximal d.rest ∧ l.value = .ok w := by
  unfold Cursor.number at h
  dsimp only at h
  split_ifs at h with hne hpoints hpoint
  · cases h
  · cases h
  · cases h
  · have hspan : c.Spans c.literal (c.advance c.literal.length) :=
      Cursor.spans_advance c.literal_append_rest.symm
    have hdigit := Cursor.exists_ne_point hne (not_lt.mp hpoints) hpoint
    refine ⟨⟨c.literal, fun _ => Cursor.isNumberChar_of_mem_literal, not_lt.mp hpoints, hdigit⟩, ?_⟩
    cases hv : Decimal.ofPlain? c.literal with
    | none => rw [hv] at h; cases h
    | some u =>
      rw [hv] at h
      cases h
      exact ⟨hspan, fun x => Cursor.isNumberChar_behind_literal, by rw [Literal.value, hv]⟩

/-- Where the rule reads a value, it has read a tree of this value that is not too deep and has no
literal that is continued. -/
def ReadsTree (k : Calculator) (r : Rule) (v : Decimal) (c : Cursor) : Prop :=
  ∀ room w d, c.Room room → k.read r v c = .value w d → ∃ t : Tree r,
    c.Spans t.text d ∧ t.depth ≤ room ∧ t.Maximal d.rest ∧ t.valueWithin k room v = .ok w

theorem hereditary_readsTree (k : Calculator) : k.Hereditary k.ReadsTree where
  expression v c hterm htail := by
    intro room w d hroom h
    rw [read, expression_eq, andThen_eq_value_iff] at h
    obtain ⟨x, e, h1, h2⟩ := h
    obtain ⟨first, hs1, hd1, hm1, hv1⟩ := hterm room x e hroom h1
    obtain ⟨more, hs2, hd2, hm2, hv2⟩ := htail x e h1 room w d (hs1.room hroom) h2
    rw [hs2.rest] at hm1
    refine ⟨.expression first more, hs1.trans hs2, Nat.max_le.mpr ⟨hd1, hd2⟩, ⟨hm1, hm2⟩, ?_⟩
    rw [Tree.valueWithin, hv1]
    exact hv2
  term v c hterm htail := by
    intro room w d hroom h
    rw [read, term_eq, andThen_eq_value_iff] at h
    obtain ⟨x, e, h1, h2⟩ := h
    obtain ⟨first, hs1, hd1, hm1, hv1⟩ := hterm room x e hroom h1
    obtain ⟨more, hs2, hd2, hm2, hv2⟩ := htail x e h1 room w d (hs1.room hroom) h2
    rw [hs2.rest] at hm1
    refine ⟨.term first more, hs1.trans hs2, Nat.max_le.mpr ⟨hd1, hd2⟩, ⟨hm1, hm2⟩, ?_⟩
    rw [Tree.valueWithin, hv1]
    exact hv2
  sumTail v c hterm htail := by
    intro room w d hroom h
    rw [read, sumTail_eq] at h
    cases hc : c.accept? ['+', '-'] with
    | none =>
      rw [hc] at h
      cases h
      exact ⟨.noSummand, Cursor.spans_nil c, Nat.zero_le _, trivial, rfl⟩
    | some opd =>
      obtain ⟨op, e⟩ := opd
      rw [hc] at h
      simp only [andThen_eq_value_iff, of_eq_value_iff] at h
      obtain ⟨x, _, h1, y, f, ⟨hy, rfl⟩, h2⟩ := h
      obtain ⟨s, rfl⟩ := Sign.exists_of_mem (Cursor.rest_of_accept? hc).2.2
      have hs := Cursor.spans_of_accept? hc
      obtain ⟨t, hs1, hd1, hm1, hv1⟩ := hterm _ e hc room x f (hs.room hroom) h1
      obtain ⟨more, hs2, hd2, hm2, hv2⟩ :=
        htail _ e x f y hc h1 room w d (hs1.room (hs.room hroom)) h2
      rw [hs2.rest] at hm1
      refine ⟨.summand s t more, hs.trans (hs1.trans hs2), Nat.max_le.mpr ⟨hd1, hd2⟩, ⟨hm1, hm2⟩, ?_⟩
      have hcombine : s.combine k v x = .ok y := by rw [← Sign.combine_eq, hy]; rfl
      rw [Tree.valueWithin, hv1]
      show (s.combine k v x >>= _) = _
      rw [hcombine]
      exact hv2
  productTail v c hterm htail := by
    intro room w d hroom h
    rw [read, productTail_eq] at h
    cases hc : c.accept? ['*', '/'] with
    | none =>
      rw [hc] at h
      cases h
      exact ⟨.noFactor, Cursor.spans_nil c, Nat.zero_le _, trivial, rfl⟩
    | some opd =>
      obtain ⟨op, e⟩ := opd
      rw [hc] at h
      simp only [andThen_eq_value_iff, of_eq_value_iff] at h
      obtain ⟨x, _, h1, y, f, ⟨hy, rfl⟩, h2⟩ := h
      obtain ⟨s, rfl⟩ := Scale.exists_of_mem (Cursor.rest_of_accept? hc).2.2
      have hs := Cursor.spans_of_accept? hc
      obtain ⟨t, hs1, hd1, hm1, hv1⟩ := hterm _ e hc room x f (hs.room hroom) h1
      obtain ⟨more, hs2, hd2, hm2, hv2⟩ :=
        htail _ e x f y hc h1 room w d (hs1.room (hs.room hroom)) h2
      rw [hs2.rest] at hm1
      refine ⟨.factor s t more, hs.trans (hs1.trans hs2), Nat.max_le.mpr ⟨hd1, hd2⟩, ⟨hm1, hm2⟩, ?_⟩
      have hcombine : s.combine k v x = .ok y := by rw [← Scale.combine_eq k s c, hy]; rfl
      rw [Tree.valueWithin, hv1]
      show (s.combine k v x >>= _) = _
      rw [hcombine]
      exact hv2
  exponent v c hprimary hpower := by
    intro room w d hroom h
    rw [read, exponent_eq_within, andThen_eq_value_iff] at h
    obtain ⟨x, e, h1, h2⟩ := h
    obtain ⟨p, hs1, hd1, hm1, hv1⟩ := hprimary room x e hroom h1
    cases hc : e.accept? ['^'] with
    | none =>
      rw [hc] at h2
      cases h2
      exact ⟨.base p, hs1, hd1, hm1, hv1⟩
    | some accepted =>
      obtain ⟨op, f⟩ := accepted
      rw [hc] at h2
      simp only [andThen_eq_value_iff, Cursor.within_eq_value_iff, of_eq_value_iff] at h2
      obtain ⟨y, _, ⟨g, i, he, h2, rfl⟩, hpow, rfl⟩ := h2
      have hs := Cursor.spans_of_accept? hc
      obtain ⟨n, rfl, rfl, hroom'⟩ := (hs.room (hs1.room hroom)).of_enter? he
      obtain ⟨t, hs2, hd2, hm2, hv2⟩ := hpower x e op f _ h1 hc he n y i hroom' h2
      have hcaret : op = '^' := List.mem_singleton.mp (Cursor.rest_of_accept? hc).2.2
      subst hcaret
      rw [hs.rest, hs2.leave.rest] at hm1
      refine ⟨.power p t, hs1.trans (hs.trans hs2.leave), by rw [Tree.depth]; omega,
        ⟨hm1, hm2⟩, ?_⟩
      rw [Tree.valueWithin, hv1]
      show (t.valueWithin k n v >>= fun z => (x.power k.functions z).mapError PowerError.kind) = _
      rw [hv2]
      show (x.power k.functions y).mapError PowerError.kind = _
      rw [← powerResult_kind, hpow]
      rfl
  primary v c hoperand hsigned := by
    intro room w d hroom h
    rw [read, primary_eq] at h
    cases hc : c.accept? ['+', '-'] with
    | none =>
      rw [hc] at h
      obtain ⟨o, hs, hd, hm, hv⟩ := hoperand room w d hroom h
      exact ⟨.unsigned o, hs, hd, hm, hv⟩
    | some opd =>
      obtain ⟨op, e⟩ := opd
      rw [hc] at h
      obtain ⟨x, h1, rfl⟩ := map_eq_value_iff.mp h
      obtain ⟨s, rfl⟩ := Sign.exists_of_mem (Cursor.rest_of_accept? hc).2.2
      have hs := Cursor.spans_of_accept? hc
      obtain ⟨o, hs1, hd, hm, hv⟩ := hsigned _ e hc room x d (hs.room hroom) h1
      refine ⟨.signed s o, hs.trans hs1, hd, hm, ?_⟩
      rw [Tree.valueWithin, hv, Sign.signed_char]
      rfl
  operand v c hroot hgroup := by
    intro room w d hroom h
    rw [read, operand_eq_within] at h
    cases hc : c.accept? [rootSign] with
    | some accepted =>
      obtain ⟨op, e⟩ := accepted
      rw [hc] at h
      simp only [andThen_eq_value_iff, Cursor.within_eq_value_iff, of_eq_value_iff] at h
      obtain ⟨y, _, ⟨f, i, he, h1, rfl⟩, hroot', rfl⟩ := h
      have hs := Cursor.spans_of_accept? hc
      obtain ⟨n, rfl, rfl, hroom'⟩ := (hs.room hroom).of_enter? he
      obtain ⟨p, hs1, hd, hm, hv⟩ := hroot op e _ hc he n y i hroom' h1
      have hsign : op = rootSign := List.mem_singleton.mp (Cursor.rest_of_accept? hc).2.2
      subst hsign
      refine ⟨.root p, hs.trans hs1.leave, Nat.succ_le_succ hd, hm, ?_⟩
      rw [Tree.valueWithin]
      show (p.valueWithin k n v >>= fun z => (z.squareRoot k.functions).mapError PowerError.kind) = _
      rw [hv]
      show (y.squareRoot k.functions).mapError PowerError.kind = _
      rw [← powerResult_kind, hroot']
      rfl
    | none =>
      rw [hc] at h
      dsimp only at h
      cases hc' : c.accept? [openParen] with
      | some accepted =>
        obtain ⟨op, e⟩ := accepted
        rw [hc'] at h
        simp only [andThen_eq_value_iff, Cursor.within_eq_value_iff] at h
        obtain ⟨y, _, ⟨f, i, he, h1, rfl⟩, h2⟩ := h
        have hs := Cursor.spans_of_accept? hc'
        obtain ⟨n, rfl, rfl, hroom'⟩ := (hs.room hroom).of_enter? he
        obtain ⟨t, hs1, hd, hm, hv⟩ := hgroup op e _ hc' he n y i hroom' h1
        cases hclose : i.leave.accept? [closeParen] with
        | none =>
          rw [hclose] at h2
          cases h2
        | some accepted =>
          obtain ⟨op', g⟩ := accepted
          rw [hclose] at h2
          cases h2
          have hopen : op = openParen := List.mem_singleton.mp (Cursor.rest_of_accept? hc').2.2
          have hclosed : op' = closeParen :=
            List.mem_singleton.mp (Cursor.rest_of_accept? hclose).2.2
          subst hopen hclosed
          rw [show i.rest = _ from (Cursor.rest_of_accept? hclose).1] at hm
          exact ⟨.group t, hs.trans (hs1.leave.trans (Cursor.spans_of_accept? hclose)),
            Nat.succ_le_succ hd, hm, hv⟩
      | none =>
        rw [hc'] at h
        obtain ⟨l, hs, hm, hv⟩ := exists_literal h
        exact ⟨.number l, hs, Nat.zero_le _, hm, hv⟩

/-- **Soundness**: where a rule reads a value, it has read a tree of this value. -/
theorem exists_tree_of_value (hroom : c.Room room) (h : k.read r v c = .value w d) : ∃ t : Tree r,
    c.Spans t.text d ∧ t.depth ≤ room ∧ t.Maximal d.rest ∧ t.valueWithin k room v = .ok w :=
  (hereditary_readsTree k).read r v c room w d hroom h

/-- Where a rule reads a value, it has read a tree that is not too deep. -/
theorem exists_tree (hroom : c.Room room) (h : k.read r v c = .value w d) :
    ∃ t : Tree r, c.Spans t.text d ∧ t.depth ≤ room := by
  obtain ⟨t, hspan, hdepth, -⟩ := exists_tree_of_value hroom h
  exact ⟨t, hspan, hdepth⟩

end Calculator

end InfixCalculator
