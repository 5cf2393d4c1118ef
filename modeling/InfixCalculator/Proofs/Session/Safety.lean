import InfixCalculator.Proofs.Expression.Signals
import InfixCalculator.Session

/-! # Nothing but values and errors

* `Calculator.evaluate_cases`: an evaluation ends with a value that is no negative zero, or with an
  error; `EvaluationError.message_ne_nil`: an error has a message.
* `Session.perform_of_noAbort`: lines that cannot abort are all read.
* `Calculator.never_aborts`: whatever the functions on doubles answer, nothing but values and errors
  comes of an evaluation, and a session reads all of its lines. -/

namespace InfixCalculator

/-! ### Errors -/

theorem PowerError.message_ne_nil (e : PowerError) : e.message ≠ [] := by
  cases e with
  | noRealPower b e => exact List.append_ne_nil_of_right_ne_nil _ (by decide)
  | powerTooLarge b e => exact List.append_ne_nil_of_right_ne_nil _ (by decide)
  | negativeRadicand r => exact List.append_ne_nil_of_left_ne_nil (by decide) _
  | rootTooLarge r => exact List.cons_ne_nil _ _

/-- **Every error has a message.** -/
theorem EvaluationError.message_ne_nil (e : EvaluationError) : e.message ≠ [] := by
  have hleft : ∀ {xs : List Char} (ys : List Char), xs ≠ [] → xs ++ ys ≠ [] := fun ys h =>
    List.append_ne_nil_of_left_ne_nil h ys
  obtain ⟨text, p⟩ := e
  cases p with
  | unexpectedCharacter position c => exact hleft _ (hleft _ (by decide))
  | trailingInput position => exact hleft _ (by decide)
  | missingNumber position => exact hleft _ (by decide)
  | noDigits position => exact hleft _ (hleft _ (by decide))
  | unreadableLiteral literal => exact hleft _ (hleft _ (by decide))
  | multiplePoints position literal => exact hleft _ (hleft _ (hleft _ (by decide)))
  | unclosedGroup position => exact hleft _ (by decide)
  | divisionByZero position => exact hleft _ (by decide)
  | nestingTooDeep position limit => exact hleft _ (hleft _ (hleft _ (by decide)))
  | power p => exact p.message_ne_nil
  | resultTooLarge => exact hleft _ (hleft _ (by decide))

namespace Calculator

variable {k : Calculator} {text : List Char}

/-! ### Values -/

theorem negative_unsignedZero {v : Decimal} (h : (unsignedZero v).isZero = true) :
    (unsignedZero v).negative = false := by
  unfold unsignedZero at h ⊢
  split_ifs with hv
  · rfl
  · rw [if_neg hv] at h
    exact absurd h hv

/-- A value is no negative zero. -/
theorem negative_of_evaluate {v : Decimal} (h : k.evaluate text = .ok v) (hv : v.isZero = true) :
    v.negative = false := by
  unfold evaluate at h
  dsimp only at h
  split_ifs at h
  · cases h
    rfl
  · unfold evaluateNormal at h
    split at h
    · cases h
    · split_ifs at h
      cases h
      exact negative_unsignedZero hv

/-- **An evaluation ends with a value or an error.** -/
theorem evaluate_cases (k : Calculator) (text : List Char) :
    (∃ v, k.evaluate text = .ok v ∧ k.tryEvaluate text = .ok (.ok v)) ∨
      ∃ e, k.evaluate text = .error (.error e) ∧ k.tryEvaluate text = .ok (.error e) := by
  unfold tryEvaluate
  cases h : k.evaluate text with
  | ok v => exact .inl ⟨v, rfl, rfl⟩
  | error failure =>
    cases failure with
    | error e => exact .inr ⟨e, rfl, rfl⟩
    | signal s => exact absurd h (evaluate_ne_signal k text s)

end Calculator

/-! ### Lines -/

namespace Session

variable {k : Calculator} {trace : Traceback} {o : Options}

/-- A line that does not abort is followed by the others. -/
theorem perform_cons {s : Session} {line : List Char} (rest : List (List Char))
    (h : (step k trace o s line).fault = none) :
    perform k trace o s (line :: rest) =
      let first := step k trace o s line
      let others := perform k trace o first.session rest
      ⟨⟨others.session, first.out ++ others.out, first.err ++ others.err, others.fault⟩,
        others.unread⟩ := by
  rw [perform]
  simp only [h]

/-- Lines are all read if none can abort. -/
theorem perform_of_noAbort (h : ∀ s line, (step k trace o s line).fault = none) (s : Session)
    (lines : List (List Char)) :
    (perform k trace o s lines).fault = none ∧ (perform k trace o s lines).unread = [] := by
  induction lines generalizing s with
  | nil => exact ⟨rfl, rfl⟩
  | cons line rest ih =>
    rw [perform_cons rest (h s line)]
    exact ih _

/-- With a layout, a value or an error is shown. -/
theorem report_of_layout {layout : Layout} (h : Layout.ofSettings? o.display = .ok layout)
    (s : Session) (r : Evaluated) : (s.report trace o r).fault = none := by
  cases r with
  | ok v => rw [report, Decimal.display, h]; rfl
  | error e => rfl

theorem step_of_tryEvaluate (haction : o.action = .evaluate) {s : Session} {line : List Char}
    {r : Evaluated} (h : k.tryEvaluate (s.substitute line) = .ok r) :
    s.step k trace o line = s.report trace o r := by
  rw [step, haction]
  dsimp only
  rw [evaluateLine, h]

theorem step_of_layout {layout : Layout} (haction : o.action = .evaluate)
    (h : Layout.ofSettings? o.display = .ok layout) (s : Session) (line : List Char) :
    (s.step k trace o line).fault = none := by
  rcases k.evaluate_cases (s.substitute line) with ⟨v, -, hv⟩ | ⟨e, -, he⟩
  · rw [step_of_tryEvaluate haction hv]
    exact report_of_layout h s _
  · rw [step_of_tryEvaluate haction he]
    exact report_of_layout h s _

end Session

namespace Calculator

/-- The precisions that a user can ask for. -/
theorem evaluateAt_eq (f : Double.Functions) {n : ℤ} (h1 : 1 ≤ n) (hn : n ≤ Precision.greatest) :
    ∃ p : Precision, p.digits = n ∧
      ∀ text, evaluateAt f (some n) text = .ok (evaluate ⟨p, f⟩ text) := by
  have hword : ¬ (n < -2 ^ 63 ∨ 2 ^ 63 ≤ n) := by
    unfold Precision.greatest at hn
    omega
  refine ⟨⟨n.toNat, by omega⟩, Int.toNat_of_nonneg (by omega), fun text => ?_⟩
  by_cases h : normalize text = []
  · rw [evaluateAt, if_pos h, evaluate, if_pos h]
  · rw [evaluateAt, if_neg h, Precision.ofOption?, Precision.ofInt?, if_neg hword, dif_pos ⟨h1, hn⟩]
    rfl

/-- **Nothing but values and errors**, at every precision and whatever the functions on doubles
answer. An evaluation ends with a value that is no negative zero, or with an error that has a kind
and a message. The only signal of an operation, and of any reading, is an overflow, and none leaves
the evaluation. A session whose results can be shown reads all of its lines. -/
theorem never_aborts (k : Calculator) :
    (∀ n : ℤ, 1 ≤ n → n ≤ 999999999999999999 → ∃ p : Precision, p.digits = n ∧
      ∀ text, evaluateAt k.functions (some n) text = .ok (evaluate ⟨p, k.functions⟩ text)) ∧
    (∀ text,
      (∃ v, k.evaluate text = .ok v ∧ (v.isZero = true → v.negative = false) ∧
        k.tryEvaluate text = .ok (.ok v)) ∨
      ∃ e, k.evaluate text = .error (.error e) ∧ e.message ≠ [] ∧
        k.tryEvaluate text = .ok (.error e)) ∧
    (∀ (op : Char) (place : Cursor) (a b : Decimal) (s : Signal),
      (k.addOrSub op a b = .error (.signal s) → s = .overflow) ∧
      (k.mulOrDiv op place a b = .error (.signal s) → s = .overflow)) ∧
    (∀ (c d : Cursor) (s : Signal), k.expression c = .fault (.signal s) d → s = .overflow) ∧
    (∀ text s, k.evaluate text ≠ .error (.signal s)) ∧
    (∀ (trace : Session.Traceback) (o : Options) (layout : Layout), o.action = .evaluate →
      Layout.ofSettings? o.display = .ok layout → ∀ (s : Session) (lines : List (List Char)),
        (Session.perform k trace o s lines).fault = none ∧
          (Session.perform k trace o s lines).unread = []) := by
  refine ⟨fun n h1 hn => evaluateAt_eq k.functions h1 hn, fun text => ?_,
    fun op place a b s => ⟨addOrSub_signal, mulOrDiv_signal⟩,
    fun c d s h => proper_read k .expression default c s d h, evaluate_ne_signal k,
    fun trace o layout haction hlayout s lines => ?_⟩
  · rcases k.evaluate_cases text with ⟨v, hv, htry⟩ | ⟨e, he, htry⟩
    · exact .inl ⟨v, hv, negative_of_evaluate hv, htry⟩
    · exact .inr ⟨e, he, e.message_ne_nil, htry⟩
  · exact Session.perform_of_noAbort (Session.step_of_layout haction hlayout) s lines

end Calculator

end InfixCalculator
