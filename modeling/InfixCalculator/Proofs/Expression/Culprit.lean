import InfixCalculator.Proofs.Expression.Meaning
import InfixCalculator.Proofs.Expression.Normal
import InfixCalculator.Proofs.Expression.Place
import InfixCalculator.Proofs.Expression.Stop

/-! # Positions of errors

An error points at what is wrong in the normal form of the expression.

* `OperandPlace`: the positions where an operand may begin.
* `Calculator.Culprit`: what stands at the position of an error, for each kind of error.
* `Calculator.culprit_of_raised`, `culprit_trailing`: problems point at their culprits.
* `Calculator.error_position`: so do the errors of an evaluation. -/

namespace InfixCalculator

/-! ### What an error points at -/

/-- An operand may begin at the position: it is the first one, or an operator or an opening stands
before it. -/
def OperandPlace (text : List Char) (p : ℕ) : Prop :=
  p = 0 ∨ 0 < p ∧ ∃ x ∈ leadingChars, text[p - 1]? = some x

/-- **What an error points at.** Errors of the other kinds have no position. -/
def Calculator.Culprit (k : Calculator) (text : List Char) (p : ℕ) : ErrorKind → Prop
  | .divideByZero => text[p]? = some '/'
  | .unmatchedParenthesis =>
    -- The group has begun with a complete expression, and there it is neither closed nor continued.
    text[p]? = some openParen ∧ ∃ q, p + 1 < q ∧ q ≤ text.length ∧
      Nonempty (Derivation ((text.drop (p + 1)).take (q - (p + 1)))) ∧
      ∀ x, text[q]? = some x → x ≠ closeParen ∧ x ∉ operators
  | .unexpectedTrailingInput =>
    0 < p ∧ (∃ v, k.evaluate (text.take p) = .ok v) ∧ ∃ x, text[p]? = some x ∧ x ∉ operators ∧
      (isNumberChar x = true → text[p - 1]? = some closeParen)
  | .unexpectedCharacter => OperandPlace text p ∧ ∃ x, text[p]? = some x ∧ isAlphabet x = false
  | .multipleDecimalPoints =>
    OperandPlace text p ∧ 1 < ((text.drop p).takeWhile isNumberChar).count point
  | .invalidNumber => OperandPlace text p ∧ (p = text.length ∨
      (∃ x, text[p]? = some x ∧ isAlphabet x = true ∧ isNumberChar x = false) ∨
      (text.drop p).takeWhile isNumberChar = [point])
  | .nestingTooDeep =>
    0 < p ∧ (∃ x ∈ ['(', '√', '^'], text[p - 1]? = some x) ∧ Opens (text.take p) 100
  | .negativeRadicand | .invalidPower | .numericOverflow => False

namespace Cursor.Behind

variable {limit n : ℕ} {text before : List Char} {c : Cursor}

theorem getElem?_pred (h : c.Behind limit text before n) (hne : before ≠ []) :
    text[before.length - 1]? = before.getLast? := by
  have hpos := List.length_pos_iff.mpr hne
  rw [List.getLast?_eq_getElem?, h.split, List.getElem?_append_left (by omega)]

/-- An operand may begin where a rule does, unless it is a repetition. -/
theorem operandPlace (h : c.Behind limit text before n) {r : Rule} (hr : r.Begins before n)
    (hsum : r ≠ .sumTail) (hproduct : r ≠ .productTail) : OperandPlace text before.length := by
  rcases hr.last hsum hproduct with rfl | ⟨x, hx, hlast⟩
  · exact .inl rfl
  · have hne : before ≠ [] := by
      rintro rfl
      cases hlast
    exact .inr ⟨List.length_pos_iff.mpr hne, x, hx, (h.getElem?_pred hne).trans hlast⟩

end Cursor.Behind

namespace Calculator

variable {k : Calculator} {n : ℕ} {text before : List Char} {c d : Cursor} {p : Problem}

/-! ### Problems of a reading -/

/-- Where a rule is entered, it begins. -/
theorem exists_behind {r : Rule} {v : Decimal}
    (h : k.Entered (.start text (some nestingLimit)) r v c) :
    ∃ before n, c.Behind 100 text before n ∧ r.Begins before n :=
  h.begins

/-- A level that is refused: the position is behind the character that opens it. -/
theorem culprit_level (h : c.Behind 100 text before n) {x y : Char}
    (hop : c.accept? [y] = some (x, d)) (hopens : Opens (before ++ [y]) n)
    (hp : d.enter? = .error p) {q : ℕ} (hq : p.position? = some q) :
    q ≤ text.length ∧ k.Culprit text q p.kind := by
  obtain rfl : x = y := List.mem_singleton.mp (Cursor.rest_of_accept? hop).2.2
  have hd := h.accept hop
  obtain ⟨rfl, rfl⟩ := hd.refuse hp
  cases hq
  obtain ⟨z, hz, hlast⟩ := hopens.last
  have hne : before ++ [x] ≠ [] := List.append_ne_nil_of_right_ne_nil _ (List.cons_ne_nil _ _)
  refine ⟨hd.length_le, List.length_pos_iff.mpr hne, ⟨z, hz, ?_⟩, ?_⟩
  · rw [hd.getElem?_pred hne, hlast]
  · rw [hd.take_length]
    exact hopens

/-- A number that is not one. A literal of digits without a value has no position. -/
theorem culprit_number (h : c.Behind 100 text before n) (hplace : OperandPlace text before.length)
    (hp : c.number = .fault (.problem p) d) {q : ℕ} (hq : p.position? = some q) :
    q = before.length ∧ k.Culprit text before.length p.kind := by
  have hliteral : (text.drop before.length).takeWhile isNumberChar = c.literal := by
    rw [h.drop_length, Cursor.literal]
  unfold Cursor.number at hp
  dsimp only at hp
  split_ifs at hp with hempty hpoints hpoint
  · cases hp
    unfold Cursor.noLiteral Cursor.peek at hq ⊢
    rw [h.head?_rest, h.position] at hq ⊢
    cases hx : text[before.length]? with
    | none =>
      rw [hx] at hq
      have hend : before.length = text.length :=
        Nat.le_antisymm h.length_le (List.getElem?_eq_none_iff.mp hx)
      exact ⟨(Option.some.inj hq).symm, hplace, .inl hend⟩
    | some x =>
      rw [hx] at hq
      have hnumber : isNumberChar x = false :=
        Cursor.literal_eq_nil_iff.mp hempty x (h.head?_rest.trans hx)
      dsimp only at hq ⊢
      split_ifs at hq ⊢ with halphabet
      · exact ⟨(Option.some.inj hq).symm, hplace, .inr (.inl ⟨x, hx, halphabet, hnumber⟩)⟩
      · exact ⟨(Option.some.inj hq).symm, hplace, x, hx, by simpa using halphabet⟩
  · cases hp
    rw [h.position] at hq
    refine ⟨(Option.some.inj hq).symm, hplace, ?_⟩
    rw [hliteral]
    exact hpoints
  · cases hp
    rw [h.position] at hq
    refine ⟨(Option.some.inj hq).symm, hplace, .inr (.inr ?_)⟩
    rw [hliteral]
    exact hpoint
  · -- The literal has a digit without a value.
    cases hv : Decimal.ofPlain? c.literal with
    | some v => rw [hv] at hp; cases hp
    | none =>
      rw [hv] at hp
      cases hp
      cases hq

/-- A group that is not closed. What has been read of its inside is an expression that ends there. -/
theorem culprit_unclosed (h : c.Behind 100 text before n) {x : Char} {w : Decimal} {e : Cursor}
    (hop : c.accept? [openParen] = some (x, d)) (hw : d.within k.expression = .value w e)
    (hclose : e.accept? [closeParen] = none) :
    k.Culprit text before.length .unmatchedParenthesis := by
  obtain ⟨f, g, hf, hg, rfl⟩ := Cursor.within_eq_value_iff.mp hw
  have hd := h.accept hop
  have hinside := hd.enter hf
  obtain ⟨t, hspan, -⟩ := exists_tree (r := .expression) (v := w) hinside.room hg
  have hstop := accept?_readsOn (r := .expression) (v := w) f.accept?_nil hg
  have hopen : x = openParen := List.mem_singleton.mp (Cursor.rest_of_accept? hop).2.2
  subst hopen
  have hbehind := hinside.spans hspan
  have hlen : (before ++ [openParen]).length = before.length + 1 := List.length_append
  have hq : (before ++ [openParen] ++ t.text).length = before.length + 1 + t.text.length := by
    rw [List.length_append, hlen]
  have hslice : (text.drop (before.length + 1)).take t.text.length = t.text := by
    rw [← hlen, hinside.drop_length, hspan.rest, List.take_left]
  refine ⟨?_, before.length + 1 + t.text.length, ?_, ?_, ?_, fun y hy => ⟨?_, ?_⟩⟩
  · rw [← h.head?_rest, (Cursor.rest_of_accept? hop).1, List.head?_cons]
  · have hpos := List.length_pos_iff.mpr (t.text_ne_nil (by decide) (by decide))
    omega
  · rw [← hq]
    exact hbehind.length_le
  · rw [Nat.add_sub_cancel_left, hslice]
    exact ⟨.ofTree t rfl⟩
  · rw [← hq, ← hbehind.head?_rest] at hy
    rintro rfl
    exact Cursor.accept?_eq_none_iff.mp hclose _ hy List.mem_cons_self
  · rw [← hq, ← hbehind.head?_rest] at hy
    exact Cursor.accept?_eq_none_iff.mp hstop _ hy

/-- A division by zero: the position is that of the operator. -/
theorem culprit_division (h : c.Behind 100 text before n) {op : Char} {v w : Decimal}
    (hop : c.accept? ['*', '/'] = some (op, d))
    (hp : k.mulOrDiv op c v w = .error (.problem p)) :
    p = .divisionByZero before.length ∧ text[before.length]? = some '/' := by
  obtain ⟨hrest, -, hmem⟩ := Cursor.rest_of_accept? hop
  unfold mulOrDiv at hp
  split_ifs at hp with htimes hzero
  · exact absurd hp (arithmeticResult_ne_problem _ _)
  · cases hp
    have hslash : op = '/' := by simpa [htimes] using hmem
    refine ⟨by rw [h.position], ?_⟩
    rw [← h.head?_rest, hrest, hslash, List.head?_cons]
  · exact absurd hp (arithmeticResult_ne_problem _ _)

/-- **Problems point at their culprits.** -/
theorem culprit_of_raised (h : k.Raised (.start text (some nestingLimit)) p) {q : ℕ}
    (hq : p.position? = some q) : q ≤ text.length ∧ k.Culprit text q p.kind := by
  cases h with
  | division henter hop hw hp =>
    obtain ⟨before, n, hc, -⟩ := exists_behind henter
    obtain ⟨rfl, hslash⟩ := culprit_division hc hop hp
    cases hq
    exact ⟨hc.length_le, hslash⟩
  | @powerLevel v _ _ _ _ _ _ henter hw hop hp =>
    obtain ⟨before, n, hc, hr⟩ := exists_behind henter
    obtain ⟨b, hspan, -⟩ := exists_tree (r := .primary) (v := v) hc.room hw
    exact culprit_level (hc.spans hspan) hop (.power hr b) hp hq
  | rootLevel henter hop hp =>
    obtain ⟨before, n, hc, hr⟩ := exists_behind henter
    exact culprit_level hc hop (.root hr) hp hq
  | groupLevel henter hop hp =>
    obtain ⟨before, n, hc, hr⟩ := exists_behind henter
    exact culprit_level hc hop (.group hr) hp hq
  | power hp | root hp =>
    rw [position?_of_powerResult hp] at hq
    cases hq
  | unclosed henter hop hw hclose =>
    obtain ⟨before, n, hc, -⟩ := exists_behind henter
    cases hq
    rw [hc.position]
    exact ⟨hc.length_le, culprit_unclosed hc hop hw hclose⟩
  | number henter hroot hopen hp =>
    obtain ⟨before, n, hc, hr⟩ := exists_behind henter
    obtain ⟨rfl, hculprit⟩ := culprit_number hc (hc.operandPlace hr (by decide) (by decide)) hp hq
    exact ⟨hc.length_le, hculprit⟩

/-! ### Something behind the expression -/

/-- An expression that ends before the text does: what has been read is an expression of its own. -/
theorem culprit_trailing (hnormal : ∀ x ∈ text, IsNormal x) {w : Decimal}
    (h : k.expression (.start text (some nestingLimit)) = .value w c) (hend : c.atEnd = false) :
    c.position ≤ text.length ∧ k.Culprit text c.position .unexpectedTrailingInput := by
  have hstart : (Cursor.start text (some nestingLimit)).Behind 100 text [] 0 := .start 100 text
  obtain ⟨t, hspan, hdepth, hmax, hvalue⟩ :=
    exists_tree_of_value (r := .expression) (v := .ofNat 0) hstart.room h
  have hstop := accept?_readsOn (r := .expression) (v := w) (Cursor.accept?_nil _) h
  have hc : c.Behind 100 text t.text 0 := hstart.spans hspan
  have hne : t.text ≠ [] := t.text_ne_nil (by decide) (by decide)
  rw [hc.position]
  refine ⟨hc.length_le, List.length_pos_iff.mpr hne, ⟨unsignedZero w, ?_⟩, ?_⟩
  · have hnorm : normalize t.text = t.text := by
      refine normalize_of_normal fun x hx => hnormal x ?_
      rw [hc.split]
      exact List.mem_append_left _ hx
    rw [hc.take_length, evaluate_of_ne_nil (by rwa [hnorm]), hnorm]
    exact (evaluateNormal_of_derivation k (.ofTree t rfl)).of_ok w hvalue
  · cases hrest : c.rest with
    | nil =>
      rw [Cursor.atEnd, hrest] at hend
      cases hend
    | cons x xs =>
      have hhead : c.rest.head? = some x := by rw [hrest, List.head?_cons]
      refine ⟨x, by rw [← hc.head?_rest, hhead], ?_, fun hnumber => ?_⟩
      · exact Cursor.accept?_eq_none_iff.mp hstop x hhead
      · rw [hc.getElem?_pred hne, List.getLast?_eq_some_getLast hne]
        exact congrArg some
          (t.last_eq_closeParen hmax (List.getLast?_eq_some_getLast hne) hhead hnumber)

/-! ### Errors of an evaluation -/

/-- **An error points at its culprit** in the normal form of the expression. -/
theorem error_position {s : List Char} {e : EvaluationError} {p : ℕ}
    (h : k.evaluate s = .error (.error e)) (hp : e.position? = some p) :
    e.expression? = some (normalize s) ∧ p ≤ (normalize s).length ∧
      k.Culprit (normalize s) p e.kind := by
  have hexpression : e.expression = normalize s → e.expression? = some (normalize s) := by
    intro he
    have hnames : e.problem.namesExpression = true := by
      rw [Problem.namesExpression, show e.problem.position? = some p from hp]
      rfl
    rw [EvaluationError.expression?, if_pos hnames, he]
  unfold evaluate at h
  dsimp only at h
  split_ifs at h with hblank
  unfold evaluateNormal at h
  cases hread : k.expression (.start (normalize s) (some nestingLimit)) with
  | fault f c =>
    rw [hread] at h
    cases f with
    | problem q =>
      cases h
      exact ⟨hexpression rfl, culprit_of_raised (raised_of_fault hread) hp⟩
    | signal x =>
      cases x with
      | overflow => cases h; cases hp
      | _ => cases h
  | value w c =>
    rw [hread] at h
    dsimp only at h
    split_ifs at h with hend
    cases h
    cases hp
    exact ⟨hexpression rfl,
      culprit_trailing (fun x hx => isNormal_of_mem_normalize hx) hread (by simpa using hend)⟩

/-- In `2 * ((3) 7`, the error points at the outer parenthesis, behind which `(3)` is complete. -/
theorem error_position_unclosed :
    standard.evaluate "2 * ((3) 7".toList =
      .error (.error ⟨"2*((3)7".toList, .unclosedGroup 2⟩) ∧
    standard.Culprit "2*((3)7".toList 2 .unmatchedParenthesis := by
  have hnormal : normalize "2 * ((3) 7".toList = "2*((3)7".toList := by decide +kernel
  have h : standard.evaluate "2 * ((3) 7".toList =
      .error (.error ⟨"2*((3)7".toList, .unclosedGroup 2⟩) := by cbv
  obtain ⟨-, -, hculprit⟩ := error_position h rfl
  rw [hnormal] at hculprit
  exact ⟨h, hculprit⟩

end Calculator

end InfixCalculator
