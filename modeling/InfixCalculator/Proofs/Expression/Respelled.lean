import InfixCalculator.Proofs.Decimal.Spelling
import InfixCalculator.Proofs.Expression.Filled
import InfixCalculator.Proofs.Expression.Lexemes

/-! # Literals in other spellings

The value of an expression depends on its numbers and not on their spelling. Two texts that differ
only in the spelling of literals are read in step, although the decimals that the two readings hold
differ in their exponents, their coefficients and the signs of their zeros.

* `Respelled`: texts that are the same up to the spelling of literals.
* `Respelled.exists_run`: both have a run of digits and points ahead, which may be empty.
* `Link.respelled`: the link between their readings; `simulates_respelled`: it goes from step to
  step.
* `Calculator.evaluate_respelled`: the operations respect numbers, and hence evaluations do. -/

namespace InfixCalculator

open Decimal Calculator

/-! ### Texts -/

/-- A literal with a value is a number literal of the grammar. -/
theorem exists_literal_of_ofPlain? {text : List Char} {v : Decimal}
    (h : ofPlain? text = some v) : ∃ l : Literal, l.text = text ∧ l.value = .ok v := by
  obtain ⟨whole, fraction, ds, hwhole, hne, hds, -, htext⟩ := ofPlain?_eq_some_iff.mp h
  have hvalue : ∀ x ∈ whole ++ fraction, ∃ n, Text.digitValue? x = some n := fun x hx =>
    exists_of_mapM_eq_some hds hx
  have hdot : Text.digitValue? point = none := by decide
  have hpoint : ∀ x ∈ whole ++ fraction, x ≠ point := by
    rintro x hx rfl
    obtain ⟨n, hn⟩ := hvalue point hx
    rw [hdot] at hn
    cases hn
  have hmem : ∀ x ∈ text, x = point ∨ x ∈ whole ++ fraction := by
    intro x hx
    rcases htext with ⟨rfl, rfl⟩ | rfl
    · exact .inr (by simpa using hx)
    · simp only [List.mem_append, List.mem_cons] at hx ⊢
      tauto
  have hmem' : ∀ x ∈ whole ++ fraction, x ∈ text := by
    intro x hx
    rcases htext with ⟨rfl, rfl⟩ | rfl
    · simpa using hx
    · simp only [List.mem_append, List.mem_cons] at hx ⊢
      tauto
  have hcount : (whole ++ fraction).count point = 0 :=
    List.count_eq_zero.mpr fun hmem => hpoint point hmem rfl
  rw [List.count_append] at hcount
  refine ⟨⟨text, fun x hx => ?_, ?_, ?_⟩, rfl, ?_⟩
  · rcases hmem x hx with rfl | hx
    · decide
    · obtain ⟨n, hn⟩ := hvalue x hx
      rw [isNumberChar, Text.isDigit_of_digitValue? hn, Bool.true_or]
  · rcases htext with ⟨rfl, rfl⟩ | rfl
    · omega
    · rw [List.count_append, show ('.' : Char) = point from rfl, List.count_cons_self]
      omega
  · obtain ⟨x, hx⟩ := List.exists_mem_of_ne_nil _ hne
    exact ⟨x, hmem' x hx, hpoint x hx⟩
  · rw [Literal.value, h]

/-- The texts are the same up to the spelling of literals, each of which may be replaced by another
one of the same number. Runs of digits and points are literals, or malformed, as a whole. -/
inductive Respelled : List Char → List Char → Prop
  | nil : Respelled [] []
  | char (x : Char) {xs ys : List Char} (hx : isNumberChar x = false) (h : Respelled xs ys) :
    Respelled (x :: xs) (x :: ys)
  | run {l l' xs ys : List Char} (hsame : l = l' ∨ SameNumber l l') (hne : l ≠ [])
    (hrun : ∀ x ∈ l, isNumberChar x = true)
    (hend : ∀ x, xs.head? = some x → isNumberChar x = false) (h : Respelled xs ys) :
    Respelled (l ++ xs) (l' ++ ys)

/-- A run is replaced by a run. -/
theorem exists_cons_of_same {l l' : List Char} (hsame : l = l' ∨ SameNumber l l') (hne : l ≠ [])
    (hrun : ∀ x ∈ l, isNumberChar x = true) :
    ∃ x' xs', l' = x' :: xs' ∧ ∀ x ∈ l', isNumberChar x = true := by
  rcases hsame with rfl | ⟨v, v', -, hv', -⟩
  · obtain ⟨x, xs, hl⟩ := List.exists_cons_of_ne_nil hne
    exact ⟨x, xs, hl, hrun⟩
  · obtain ⟨lit, rfl, -⟩ := exists_literal_of_ofPlain? hv'
    obtain ⟨x, xs, hl, -⟩ := lit.exists_head
    exact ⟨x, xs, hl, lit.chars⟩

namespace Respelled

variable {xs ys : List Char}

/-- What is ahead of both texts: nothing, the same character, or runs of digits and points. -/
theorem head_cases (h : Respelled xs ys) :
    (xs = [] ∧ ys = []) ∨ (∃ x xs' ys', xs = x :: xs' ∧ ys = x :: ys' ∧
      isNumberChar x = false ∧ Respelled xs' ys') ∨
    ∃ x xs' x' ys', xs = x :: xs' ∧ ys = x' :: ys' ∧ isNumberChar x = true ∧
      isNumberChar x' = true := by
  cases h with
  | nil => exact .inl ⟨rfl, rfl⟩
  | char x hx h => exact .inr (.inl ⟨x, _, _, rfl, rfl, hx, h⟩)
  | run hsame hne hrun hend h =>
    obtain ⟨x', l', rfl, hrun'⟩ := exists_cons_of_same hsame hne hrun
    obtain ⟨x, l, rfl⟩ := List.exists_cons_of_ne_nil hne
    exact .inr (.inr ⟨x, _, x', _, rfl, rfl, hrun x List.mem_cons_self, hrun' x' List.mem_cons_self⟩)

theorem isEmpty (h : Respelled xs ys) : xs.isEmpty = ys.isEmpty := by
  rcases h.head_cases with ⟨rfl, rfl⟩ | ⟨x, _, _, rfl, rfl, -⟩ | ⟨x, _, x', _, rfl, rfl, -⟩ <;> rfl

/-- Both texts have a run of digits and points ahead, which may be empty. -/
theorem exists_run (h : Respelled xs ys) : ∃ l l' xs' ys', xs = l ++ xs' ∧ ys = l' ++ ys' ∧
    (l = l' ∨ SameNumber l l') ∧ (∀ x ∈ l, isNumberChar x = true) ∧
    Rule.operand.EndsBefore xs' ∧ Respelled xs' ys' := by
  cases h with
  | nil => exact ⟨[], [], [], [], rfl, rfl, .inl rfl, nofun, Rule.EndsBefore.nil _, .nil⟩
  | char x hx h =>
    exact ⟨[], [], _, _, rfl, rfl, .inl rfl, nofun, Rule.endsBefore_cons.mpr hx, .char x hx h⟩
  | @run l l' xs ys hsame hne hrun hend h =>
    exact ⟨l, l', xs, ys, rfl, rfl, hsame, hrun, hend, h⟩

/-- Where the first text does not go on with a digit or point, the second one does not. -/
theorem endsBefore (h : Respelled xs ys) (hend : Rule.operand.EndsBefore xs) :
    ys.head? = xs.head? ∧ Rule.operand.EndsBefore ys := by
  rcases h.head_cases with ⟨rfl, rfl⟩ | ⟨x, xs', ys', rfl, rfl, -⟩ | ⟨x, _, x', _, rfl, rfl, hx, -⟩
  · exact ⟨rfl, hend⟩
  · exact ⟨rfl, hend⟩
  · have hx' : isNumberChar x = false := hend x rfl
    rw [hx] at hx'
    cases hx'

end Respelled

/-! ### Cursors -/

/-- Two cursors with such texts ahead, at the same depth and with the same limit. -/
structure Cursor.RespelledAhead (c c' : Cursor) : Prop where
  rest : Respelled c.rest c'.rest
  depth : c'.depth = c.depth
  limit : c'.limit = c.limit

theorem Cursor.RespelledAhead.advance {c c' : Cursor} (h : c.RespelledAhead c') {m n : ℕ}
    (hrest : Respelled (c.rest.drop m) (c'.rest.drop n)) :
    (c.advance m).RespelledAhead (c'.advance n) :=
  ⟨hrest, h.depth, h.limit⟩

/-- The link between the readings of two such texts. No fault of the first one excuses the second
one. -/
def Link.respelled : Link := Link.numeric Cursor.RespelledAhead fun _ => False

variable {c c' : Cursor} {k : Calculator}

/-- No sign, operator, root or parenthesis is part of a literal. -/
theorem accepts_respelled (h : c.RespelledAhead c') {chars : List Char}
    (hchars : chars ⊆ punctuation) : Link.respelled.Accepts chars c c' := by
  rcases h.rest.head_cases with ⟨hc, hc'⟩ | ⟨x, xs, ys, hc, hc', -, hxs⟩ |
    ⟨x, xs, x', ys, hc, hc', hx, hx'⟩
  · refine Link.accepts_none (fun x hx => ?_) fun x hx => ?_
    · rw [hc] at hx
      cases hx
    · rw [hc'] at hx
      cases hx
  · refine Link.accepts_cons hc hc' (h.advance ?_) chars
    rwa [hc, hc', List.drop_succ_cons, List.drop_succ_cons, List.drop_zero, List.drop_zero]
  · refine Link.accepts_none (fun y hy hmem => ?_) fun y hy hmem => ?_
    · rw [hc, List.head?_cons, Option.some.injEq] at hy
      rw [hy, isNumberChar_of_mem_punctuation (hchars hmem)] at hx
      cases hx
    · rw [hc', List.head?_cons, Option.some.injEq] at hy
      rw [hy, isNumberChar_of_mem_punctuation (hchars hmem)] at hx'
      cases hx'

theorem enters_respelled (h : c.RespelledAhead c') : Link.respelled.Enters c c' := by
  cases he : c.enter? with
  | ok d =>
    obtain ⟨hroom, rfl⟩ := Cursor.enter?_eq_ok_iff.mp he
    refine .inl ⟨_, c'.enter, he, Cursor.enter?_eq_ok_iff.mpr ⟨?_, rfl⟩, h.rest, ?_, h.limit⟩
    · rw [h.limit, h.depth]
      exact hroom
    · rw [Cursor.depth_enter, Cursor.depth_enter, h.depth]
  | error p =>
    obtain ⟨limit, hlimit, hle, rfl⟩ := Cursor.enter?_eq_error_iff.mp he
    refine .inr ⟨_, he, .inr ⟨.nestingTooDeep c'.position limit, ?_, rfl⟩⟩
    refine Cursor.enter?_eq_error_iff.mpr ⟨limit, ?_, ?_, rfl⟩
    · rw [h.limit, hlimit]
    · rw [h.depth]
      exact hle

/-! ### Numbers -/

/-- A literal with a value is read as a whole. -/
theorem number_eq_value {l xs : List Char} {v : Decimal} (hv : ofPlain? l = some v)
    (hc : c.rest = l ++ xs) (hend : Rule.operand.EndsBefore xs) :
    c.number = .value v (c.advance l.length) := by
  obtain ⟨lit, rfl, hvalue⟩ := exists_literal_of_ofPlain? hv
  have hspan := Cursor.spans_advance hc
  have hend' : Rule.operand.EndsBefore (c.advance lit.text.length).rest := by
    rwa [hspan.rest_eq hc]
  exact (number_yields lit hspan hend').of_ok v hvalue

theorem number_respelled (h : c.RespelledAhead c') :
    c.number.Linked Link.respelled c'.number := by
  obtain ⟨l, l', xs, ys, hc, hc', hsame, hl, hend, hrest⟩ := h.rest.exists_run
  obtain ⟨hhead, hend'⟩ := hrest.endsBefore hend
  have hafter : (c.advance l.length).RespelledAhead (c'.advance l'.length) :=
    h.advance (by rwa [hc, hc', List.drop_left, List.drop_left])
  rcases hsame with rfl | ⟨v, v', hv, hv', hvv⟩
  · have hliteral : c.literal = l := by rw [Cursor.literal, hc, Tree.takeWhile_run hl hend]
    have hliteral' : c'.literal = l := by rw [Cursor.literal, hc', Tree.takeWhile_run hl hend']
    refine Link.number_numeric (hliteral'.trans hliteral.symm) ?_ (by rwa [hliteral])
    rw [hc, hc', List.head?_append, List.head?_append, hhead]
  · rw [number_eq_value hv hc hend, number_eq_value hv' hc' hend']
    exact .value hvv hafter

/-! ### Whole texts -/

/-- **The texts are read in step.** -/
theorem simulates_respelled (hf : k.functions.RespectAlike) : Link.respelled.Simulates k where
  addOrSub op _ _ _ _ hv hw := Link.addOrSub_numeric op hv hw
  mulOrDiv op c c' _ _ _ _ _ hv hw := Link.mulOrDiv_numeric op c c' hv hw
  power _ _ _ _ hv hw := Link.power_numeric hf hv hw
  squareRoot _ _ hv := Link.squareRoot_numeric hf hv
  signed sign _ _ hv := Link.signed_numeric sign hv
  accepts chars hchars c c' h := accepts_respelled h (by revert chars; decide)
  enters _ _ h := enters_respelled h
  leave _ _ h := ⟨h.rest, congrArg (· - 1) h.depth, h.limit⟩
  unclosed _ _ _ := rfl
  operand c c' h := .inr
    ⟨accepts_respelled h (by decide), accepts_respelled h (by decide), number_respelled h⟩

theorem evaluateNormal_respelled (hf : k.functions.RespectAlike) {xs ys : List Char}
    (h : Respelled xs ys) : ∃ r r', AgreeNumerically r r' ∧
      k.evaluateNormal xs = r.mapError .error ∧ k.evaluateNormal ys = r'.mapError .error := by
  have hstart : (Cursor.start xs (some nestingLimit)).RespelledAhead
      (.start ys (some nestingLimit)) := ⟨h, rfl, rfl⟩
  have hzero : Link.respelled.values (.ofNat 0) (.ofNat 0) := rfl
  have hread := (simulates_respelled hf).read .expression hzero hstart
  rcases evaluateNormal_linked (fun c c' hc => hc.rest.isEmpty) hread with ⟨f, e, hnone, -⟩ | hagree
  · exact hnone.elim
  · exact hagree

namespace Calculator

/-- **The value depends on numbers, not on their spelling.** Operands that are equal as numbers,
although they may differ in exponents, trailing zeros and the signs of zeros, give results that are
equal as numbers, or errors of the same kind. Hence the evaluations of two texts that differ only in
the spelling of literals come to the same number, or to errors of the same kind. A literal is
respelled by a zero in front, a zero behind its point, a point at its end and by digits of other
scripts. -/
theorem evaluate_respelled {k : Calculator} (hf : k.functions.RespectAlike) :
    (∀ a a' b b' : Decimal, a.toRat = a'.toRat → b.toRat = b'.toRat →
      (∀ op, Link.respelled.Results (k.addOrSub op a b) (k.addOrSub op a' b')) ∧
      (∀ op c c', Link.respelled.Results (k.mulOrDiv op c a b) (k.mulOrDiv op c' a' b')) ∧
      Link.respelled.Results (powerResult (a.power k.functions b))
        (powerResult (a'.power k.functions b')) ∧
      Link.respelled.Results (powerResult (a.squareRoot k.functions))
        (powerResult (a'.squareRoot k.functions)) ∧
      ∀ sign, (signed sign a).toRat = (signed sign a').toRat) ∧
    (∀ s s', Respelled (normalize s) (normalize s') → ∃ r r', AgreeNumerically r r' ∧
      k.evaluate s = r.mapError .error ∧ k.evaluate s' = r'.mapError .error) ∧
    (∀ l v, ofPlain? l = some v → SameNumber l ('0' :: l) ∧
      (point ∈ l → SameNumber l (l ++ ['0'])) ∧ (point ∉ l → SameNumber l (l ++ [point])) ∧
      ∀ l', l'.map asciiDigit = l.map asciiDigit → SameNumber l l') := by
  refine ⟨fun a a' b b' ha hb => ⟨fun op => Link.addOrSub_numeric op ha hb,
    fun op c c' => Link.mulOrDiv_numeric op c c' ha hb, Link.power_numeric hf ha hb,
    Link.squareRoot_numeric hf ha, fun sign => Link.signed_numeric sign ha⟩,
    fun s s' h => ?_, fun l v hv => ⟨.zero_cons hv, .append_zero hv, .append_point hv,
      fun l' => .scripts hv⟩⟩
  by_cases hempty : normalize s = []
  · have hempty' : normalize s' = [] :=
      List.isEmpty_iff.mp (h.isEmpty ▸ List.isEmpty_iff.mpr hempty)
    refine ⟨.ok (.ofNat 0), .ok (.ofNat 0), .ok rfl, ?_, ?_⟩
    · rw [evaluate, if_pos hempty]
      rfl
    · rw [evaluate, if_pos hempty']
      rfl
  · have hempty' : normalize s' ≠ [] := fun h' =>
      hempty (List.isEmpty_iff.mp (h.isEmpty ▸ List.isEmpty_iff.mpr h'))
    rw [evaluate_of_ne_nil hempty, evaluate_of_ne_nil hempty']
    exact evaluateNormal_respelled hf h

/-- Functions that answer for the root of four and the third power of two. -/
def rootAndCube : Double.Functions where
  power _ _ := .ok (.ofDecimal (.ofNat 8))
  squareRoot _ := .ok (.ofDecimal (.ofNat 2))

/-- `02.50+√4.*2^3` and `2.5+√٤*02^3.0` have the same value. -/
theorem evaluate_respelled_root : ∃ r r', AgreeNumerically r r' ∧
    evaluate ⟨.standard, rootAndCube⟩ "02.50+√4.*2^3".toList = r.mapError .error ∧
    evaluate ⟨.standard, rootAndCube⟩ "2.5+√٤*02^3.0".toList = r'.mapError .error := by
  have hf : rootAndCube.RespectAlike := ⟨fun _ _ => .ok (.inl rfl), fun _ => .ok (.inl rfl)⟩
  refine (evaluate_respelled (k := ⟨.standard, rootAndCube⟩) hf).2.1 _ _ ?_
  have h1 : SameNumber "02.50".toList "2.5".toList := ⟨⟨false, 250, -2⟩, ⟨false, 25, -1⟩,
    by decide, by decide, by norm_num [Decimal.toRat, Decimal.signedCoefficient]⟩
  have h2 : SameNumber "4.".toList "٤".toList := ⟨⟨false, 4, 0⟩, ⟨false, 4, 0⟩,
    by decide, by decide, rfl⟩
  have h3 : SameNumber "2".toList "02".toList := .zero_cons (v := ⟨false, 2, 0⟩) (by decide)
  have h4 : SameNumber "3".toList "3.0".toList := ⟨⟨false, 3, 0⟩, ⟨false, 30, -1⟩,
    by decide, by decide, by norm_num [Decimal.toRat, Decimal.signedCoefficient]⟩
  have hrespelled : Respelled ("02.50".toList ++ '+' :: '√' :: ("4.".toList ++ '*' ::
      ("2".toList ++ '^' :: ("3".toList ++ []))))
      ("2.5".toList ++ '+' :: '√' :: ("٤".toList ++ '*' ::
      ("02".toList ++ '^' :: ("3.0".toList ++ [])))) :=
    .run (.inr h1) (by decide) (List.all_eq_true.mp (by decide)) (by rintro _ ⟨⟩; decide) <|
    .char '+' rfl <| .char '√' rfl <|
    .run (.inr h2) (by decide) (List.all_eq_true.mp (by decide)) (by rintro _ ⟨⟩; decide) <|
    .char '*' rfl <|
    .run (.inr h3) (by decide) (List.all_eq_true.mp (by decide)) (by rintro _ ⟨⟩; decide) <|
    .char '^' rfl <|
    .run (.inr h4) (by decide) (List.all_eq_true.mp (by decide)) (by rintro _ ⟨⟩) .nil
  exact hrespelled

end Calculator

end InfixCalculator
