import InfixCalculator.Proofs.Expression.Induction

/-! # Readings in step

Two readings that go through different texts, or under different limits, and do the same.

* `Link`: what is to hold between the values, the faults and the cursors of two readings.
* `Outcome.Linked`: two outcomes between which it holds.
* `Link.Simulates`: it holds from one step to the next.
* `Link.Simulates.read`: then it holds between whole readings. -/

namespace InfixCalculator

/-- What is to hold between two readings. -/
structure Link where
  values : Decimal → Decimal → Prop
  faults : Fault → Fault → Prop
  cursors : Cursor → Cursor → Prop
  /-- After such a fault of the first reading, nothing is asked of the second one. -/
  excused : Fault → Prop

variable {L : Link}

/-! ### Outcomes in step -/

/-- Two results of an operation between which the link holds. -/
inductive Link.Results (L : Link) : Except Fault Decimal → Except Fault Decimal → Prop
  | ok {v v' : Decimal} (h : L.values v v') : L.Results (.ok v) (.ok v')
  | error {f f' : Fault} (h : L.faults f f') : L.Results (.error f) (.error f')

/-- Two outcomes between which the link holds. -/
inductive Outcome.Linked (L : Link) : Outcome → Outcome → Prop
  | value {v v' : Decimal} {c c' : Cursor} (hv : L.values v v') (hc : L.cursors c c') :
    Linked L (.value v c) (.value v' c')
  | fault {f f' : Fault} (h : L.faults f f') (c c' : Cursor) : Linked L (.fault f c) (.fault f' c')
  | excused {f : Fault} (h : L.excused f) (c : Cursor) (o : Outcome) : Linked L (.fault f c) o

namespace Outcome

variable {o o' : Outcome} {c c' : Cursor}

theorem linked_of {m m' : Except Fault Decimal} (h : L.Results m m') (hc : L.cursors c c') :
    (of m c).Linked L (of m' c') := by
  cases h with
  | ok hv => exact .value hv hc
  | error hf => exact .fault hf _ _

theorem Linked.andThen (h : o.Linked L o') {next next' : Decimal → Cursor → Outcome}
    (hn : ∀ w w' d d', o = .value w d → L.values w w' → L.cursors d d' →
      (next w d).Linked L (next' w' d')) : (o.andThen next).Linked L (o'.andThen next') := by
  cases h with
  | value hv hc => exact hn _ _ _ _ rfl hv hc
  | fault hf d d' => exact .fault hf d d'
  | excused hf d o => exact .excused hf d _

theorem Linked.leave (h : o.Linked L o')
    (hleave : ∀ c c', L.cursors c c' → L.cursors c.leave c'.leave) :
    o.leave.Linked L o'.leave := by
  cases h with
  | value hv hc => exact .value hv (hleave _ _ hc)
  | fault hf d d' => exact .fault hf _ _
  | excused hf d o => exact .excused hf _ _

theorem Linked.map (h : o.Linked L o') {f : Decimal → Decimal}
    (hf : ∀ v v', L.values v v' → L.values (f v) (f v')) : (o.map f).Linked L (o'.map f) := by
  cases h with
  | value hv hc => exact .value (hf _ _ hv) hc
  | fault hf d d' => exact .fault hf _ _
  | excused hf d o => exact .excused hf _ _

end Outcome

/-! ### Steps -/

namespace Link

/-- Both cursors have the same one of the characters ahead, or neither has one. -/
def Accepts (L : Link) (chars : List Char) (c c' : Cursor) : Prop :=
  (c.accept? chars = none ∧ c'.accept? chars = none) ∨
    ∃ x d d', c.accept? chars = some (x, d) ∧ c'.accept? chars = some (x, d') ∧ L.cursors d d'

/-- Both cursors can open one more level, or neither can, unless the first one is excused. -/
def Enters (L : Link) (c c' : Cursor) : Prop :=
  (∃ d d', c.enter? = .ok d ∧ c'.enter? = .ok d' ∧ L.cursors d d') ∨
    ∃ p, c.enter? = .error p ∧
      (L.excused (.problem p) ∨
        ∃ p', c'.enter? = .error p' ∧ L.faults (.problem p) (.problem p'))

/-- The same character is ahead of both cursors. -/
theorem accepts_cons {c c' : Cursor} {x : Char} {xs ys : List Char} (hc : c.rest = x :: xs)
    (hc' : c'.rest = x :: ys) (h : L.cursors (c.advance 1) (c'.advance 1)) (chars : List Char) :
    L.Accepts chars c c' := by
  by_cases hx : x ∈ chars
  · exact .inr ⟨x, _, _, Cursor.accept?_cons hc hx, Cursor.accept?_cons hc' hx, h⟩
  · exact .inl ⟨Cursor.accept?_cons_none hc hx, Cursor.accept?_cons_none hc' hx⟩

/-- None of the characters is ahead of either cursor. -/
theorem accepts_none {c c' : Cursor} {chars : List Char}
    (hc : ∀ x, c.rest.head? = some x → x ∉ chars)
    (hc' : ∀ x, c'.rest.head? = some x → x ∉ chars) : L.Accepts chars c c' :=
  .inl ⟨Cursor.accept?_eq_none_iff.mpr hc, Cursor.accept?_eq_none_iff.mpr hc'⟩

/-- Readings one level further inside go in step if those on the inside do. -/
theorem Enters.linked_within {c c' : Cursor} (h : L.Enters c c')
    (hleave : ∀ c c', L.cursors c c' → L.cursors c.leave c'.leave) {inside inside' : Cursor → Outcome}
    (hinside : ∀ d d', c.enter? = .ok d → L.cursors d d' → (inside d).Linked L (inside' d')) :
    (c.within inside).Linked L (c'.within inside') := by
  unfold Cursor.within
  rcases h with ⟨d, d', hd, hd', hdd⟩ | ⟨p, hp, hexcused | ⟨p', hp', hpp⟩⟩
  · rw [hd, hd']
    exact (hinside d d' hd hdd).leave hleave
  · rw [hp]
    exact .excused hexcused _ _
  · rw [hp, hp']
    exact .fault hpp _ _

/-- **The link goes from one step to the next.** Where an operand starts, the readings need not go in
step, if their outcomes are linked for another reason. -/
structure Simulates (L : Link) (k : Calculator) : Prop where
  addOrSub : ∀ op v v' w w', L.values v v' → L.values w w' →
    L.Results (k.addOrSub op v w) (k.addOrSub op v' w')
  mulOrDiv : ∀ op c c' v v' w w', L.cursors c c' → L.values v v' → L.values w w' →
    L.Results (k.mulOrDiv op c v w) (k.mulOrDiv op c' v' w')
  power : ∀ v v' w w', L.values v v' → L.values w w' →
    L.Results (Calculator.powerResult (v.power k.functions w))
      (Calculator.powerResult (v'.power k.functions w'))
  squareRoot : ∀ v v', L.values v v' →
    L.Results (Calculator.powerResult (v.squareRoot k.functions))
      (Calculator.powerResult (v'.squareRoot k.functions))
  signed : ∀ sign v v', L.values v v' →
    L.values (Calculator.signed sign v) (Calculator.signed sign v')
  accepts : ∀ chars ∈ [['+', '-'], ['*', '/'], ['^'], [closeParen]], ∀ c c', L.cursors c c' →
    L.Accepts chars c c'
  enters : ∀ c c', L.cursors c c' → L.Enters c c'
  leave : ∀ c c', L.cursors c c' → L.cursors c.leave c'.leave
  unclosed : ∀ c c', L.cursors c c' →
    L.faults (.problem (.unclosedGroup c.position)) (.problem (.unclosedGroup c'.position))
  operand : ∀ c c', L.cursors c c' → (k.operand c).Linked L (k.operand c') ∨
    (L.Accepts [rootSign] c c' ∧ L.Accepts [openParen] c c' ∧ c.number.Linked L c'.number)

/-! ### Whole readings -/

/-- Wherever the second reading stands, it goes in step with the first one. -/
def InStep (L : Link) (k : Calculator) (r : Rule) (v : Decimal) (c : Cursor) : Prop :=
  ∀ v' c', L.values v v' → L.cursors c c' → (k.read r v c).Linked L (k.read r v' c')

open Outcome Calculator

theorem hereditary_inStep {k : Calculator} (h : L.Simulates k) : k.Hereditary (L.InStep k) where
  expression v c hterm htail := by
    intro v' c' hv hc
    rw [Calculator.read, Calculator.read, expression_eq k c, expression_eq k c']
    exact (hterm v' c' hv hc).andThen fun w w' d d' hd hw hdd => htail w d hd w' d' hw hdd
  term v c hexponent htail := by
    intro v' c' hv hc
    rw [Calculator.read, Calculator.read, term_eq k c, term_eq k c']
    exact (hexponent v' c' hv hc).andThen fun w w' d d' hd hw hdd => htail w d hd w' d' hw hdd
  sumTail v c hterm htail := by
    intro v' c' hv hc
    rw [Calculator.read, Calculator.read, sumTail_eq k v c, sumTail_eq k v' c']
    rcases h.accepts ['+', '-'] (by simp) c c' hc with ⟨h1, h2⟩ | ⟨op, d, d', h1, h2, hd⟩
    · rw [h1, h2]
      exact .value hv hc
    · rw [h1, h2]
      refine (hterm op d h1 v' d' hv hd).andThen fun w w' e e' he hw hee => ?_
      refine (linked_of (h.addOrSub op v v' w w' hv hw) hee).andThen fun s s' f f' hf hs hff => ?_
      obtain ⟨-, rfl⟩ := of_eq_value_iff.mp hf
      exact htail op d w f s h1 he s' f' hs hff
  productTail v c hexponent htail := by
    intro v' c' hv hc
    rw [Calculator.read, Calculator.read, productTail_eq k v c, productTail_eq k v' c']
    rcases h.accepts ['*', '/'] (by simp) c c' hc with ⟨h1, h2⟩ | ⟨op, d, d', h1, h2, hd⟩
    · rw [h1, h2]
      exact .value hv hc
    · rw [h1, h2]
      refine (hexponent op d h1 v' d' hv hd).andThen fun w w' e e' he hw hee => ?_
      refine (linked_of (h.mulOrDiv op c c' v v' w w' hc hv hw) hee).andThen
        fun s s' f f' hf hs hff => ?_
      obtain ⟨-, rfl⟩ := of_eq_value_iff.mp hf
      exact htail op d w f s h1 he s' f' hs hff
  exponent v c hprimary hpower := by
    intro v' c' hv hc
    rw [Calculator.read, Calculator.read, exponent_eq_within k c, exponent_eq_within k c']
    refine (hprimary v' c' hv hc).andThen fun w w' d d' hd hw hdd => ?_
    rcases h.accepts ['^'] (by simp) d d' hdd with ⟨h1, h2⟩ | ⟨x, e, e', h1, h2, hee⟩
    · rw [h1, h2]
      exact .value hw hdd
    · rw [h1, h2]
      have hwithin : (e.within k.exponent).Linked L (e'.within k.exponent) :=
        (h.enters e e' hee).linked_within h.leave fun f f' hf hff =>
          hpower w d x e f hd h1 hf v' f' hv hff
      exact hwithin.andThen fun y y' g g' _ hy hgg => linked_of (h.power w w' y y' hw hy) hgg
  primary v c hoperand hsigned := by
    intro v' c' hv hc
    rw [Calculator.read, Calculator.read, primary_eq k c, primary_eq k c']
    rcases h.accepts ['+', '-'] (by simp) c c' hc with ⟨h1, h2⟩ | ⟨s, d, d', h1, h2, hd⟩
    · rw [h1, h2]
      exact hoperand v' c' hv hc
    · rw [h1, h2]
      exact (hsigned s d h1 v' d' hv hd).map (h.signed s)
  operand v c hroot hgroup := by
    intro v' c' hv hc
    rcases h.operand c c' hc with hdirect | ⟨hsqrt, hopen, hnumber⟩
    · exact hdirect
    rw [Calculator.read, Calculator.read, operand_eq_within k c, operand_eq_within k c']
    rcases hsqrt with ⟨h1, h2⟩ | ⟨x, d, d', h1, h2, hd⟩
    · rw [h1, h2]
      dsimp only
      rcases hopen with ⟨h3, h4⟩ | ⟨x, d, d', h3, h4, hd⟩
      · rw [h3, h4]
        exact hnumber
      · rw [h3, h4]
        have hwithin : (d.within k.expression).Linked L (d'.within k.expression) :=
          (h.enters d d' hd).linked_within h.leave fun e e' he hee =>
            hgroup x d e h3 he v' e' hv hee
        refine hwithin.andThen fun y y' f f' _ hy hff => ?_
        rcases h.accepts [closeParen] (by simp) f f' hff with ⟨h5, h6⟩ | ⟨z, g, g', h5, h6, hgg⟩
        · rw [h5, h6]
          exact .fault (h.unclosed c c' hc) _ _
        · rw [h5, h6]
          exact .value hy hgg
    · rw [h1, h2]
      have hwithin : (d.within k.primary).Linked L (d'.within k.primary) :=
        (h.enters d d' hd).linked_within h.leave fun e e' he hee =>
          hroot x d e h1 he v' e' hv hee
      exact hwithin.andThen fun y y' f f' _ hy hff => linked_of (h.squareRoot y y' hy) hff

/-- **Readings go in step** if their steps do. -/
theorem Simulates.read {k : Calculator} (h : L.Simulates k) (r : Rule) {v v' : Decimal}
    {c c' : Cursor} (hv : L.values v v') (hc : L.cursors c c') :
    (k.read r v c).Linked L (k.read r v' c') :=
  (hereditary_inStep h).read r v c v' c' hv hc

end Link

end InfixCalculator
