import InfixCalculator.Proofs.Expression.Filled
import InfixCalculator.Proofs.Session.Safety
import InfixCalculator.Session.Run

/-! # The last answer in place of its expression

* `Session.replaceAnswer_of_not_infix`: a line without the word is kept.
* `Session.filled_replaceAnswer`: a line with the last answer and the line with the expression that
  it is the value of are the same up to groups.
* `Session.tryEvaluate_substitute`: they evaluate to the same number, unless the latter is nested
  too deep.
* `Session.run_of_layout`: a run does what the lines do that it reads.
* `Session.run_answer_agrees`: hence the last answer stands for its expression. -/

namespace InfixCalculator

open Calculator

namespace Session

/-- The word for the last answer. -/
def answerWord : List Char := ['a', 'n', 's']

/-- The text in parentheses. -/
def parenthesized (text : List Char) : List Char := '(' :: (text ++ [')'])

/-! ### Replacing the word -/

theorem replaceAnswer_of_not_infix (replacement : List Char) {line : List Char}
    (h : ¬ answerWord <:+: line) : replaceAnswer replacement line = line := by
  fun_induction replaceAnswer replacement line with
  | case1 rest ih => exact absurd ⟨[], rest, rfl⟩ h
  | case2 c rest _ ih =>
    rw [ih fun hrest => h (hrest.trans (List.suffix_cons c rest).isInfix)]
  | case3 => rfl

theorem normalize_parenthesized (text : List Char) :
    normalize (parenthesized text) = openParen :: (normalize text ++ [closeParen]) := by
  rw [parenthesized, normalize_cons, normalize_append]
  rfl

/-- **Lines with the word replaced** by different texts in parentheses are the same up to these
groups. -/
theorem filled_replaceAnswer (e p line : List Char) :
    Filled (normalize e) (normalize p) (normalize (replaceAnswer (parenthesized e) line))
      (normalize (replaceAnswer (parenthesized p) line)) := by
  fun_induction replaceAnswer (parenthesized e) line with
  | case1 rest ih =>
    rw [replaceAnswer, normalize_append, normalize_append, normalize_parenthesized,
      normalize_parenthesized]
    simp only [List.cons_append, List.append_assoc, List.nil_append]
    exact .group ih
  | case2 c rest hword ih =>
    rw [replaceAnswer, normalize_cons, normalize_cons c (replaceAnswer (parenthesized p) rest)]
    · exact ih.append _
    · exact hword
  | case3 => exact .nil

/-! ### The lines of a run -/

section

variable {k : Calculator} {t : Surroundings} {s : Session} {o : Options} {layout : Layout}

theorem run_listed {lines : List (List Char)} (haction : o.action ≠ .grammar)
    (hexpressions : o.expressions = some lines) :
    run k t o s = conclude o none false (perform k t.traceback o s lines).toEffect t.piped := by
  rw [run, if_neg haction, hexpressions]

theorem run_piped (haction : o.action ≠ .grammar) (hexpressions : o.expressions = none)
    (hprompt : promptOf o t = none) :
    run k t o s = conclude o none false (perform k t.traceback o s t.piped).toEffect
      (perform k t.traceback o s t.piped).unread := by
  rw [run, if_neg haction, hexpressions, hprompt]

/-- With a layout, the reminder can be shown beside the prompt. -/
theorem run_typed {prompt : List Char} (haction : o.action ≠ .grammar)
    (hexpressions : o.expressions = none) (hprompt : promptOf o t = some prompt)
    (hlayout : Layout.ofSettings? o.display = .ok layout) :
    run k t o s = conclude o (some prompt) t.interrupted
      (perform k t.traceback o s t.typed).toEffect t.piped := by
  have hreminder : ∃ text, reminder o s = .ok text := by
    rw [reminder, Decimal.display, hlayout]
    exact ⟨_, rfl⟩
  obtain ⟨text, hreminder⟩ := hreminder
  rw [run, if_neg haction, hexpressions, hprompt]
  dsimp only
  rw [performTyped, hreminder]

end

/-- The lines that a run reads: those of its arguments, else those that are typed at its prompt, else
those of the standard input. -/
def linesRead (t : Surroundings) (o : Options) : List (List Char) :=
  o.expressions.getD (if (promptOf o t).isSome then t.typed else t.piped)

/-- A run that evaluates does what its lines do, wherever they come from. -/
theorem run_of_layout (k : Calculator) (t : Surroundings) (s : Session) {o : Options}
    {layout : Layout} (haction : o.action = .evaluate)
    (hlayout : Layout.ofSettings? o.display = .ok layout) :
    (run k t o s).session = (perform k t.traceback o s (linesRead t o)).session ∧
      (run k t o s).out = (perform k t.traceback o s (linesRead t o)).out ∧
      (run k t o s).err = (perform k t.traceback o s (linesRead t o)).err := by
  have hheading : heading o = [] := by rw [heading, haction]
  have hgrammar : o.action ≠ .grammar := by rw [haction]; decide
  cases hexpressions : o.expressions with
  | some lines =>
    rw [run_listed hgrammar hexpressions, conclude, hheading, linesRead, hexpressions]
    exact ⟨rfl, rfl, rfl⟩
  | none =>
    cases hprompt : promptOf o t with
    | some prompt =>
      rw [run_typed hgrammar hexpressions hprompt hlayout, conclude, hheading, linesRead,
        hexpressions, hprompt]
      exact ⟨rfl, rfl, rfl⟩
    | none =>
      rw [run_piped hgrammar hexpressions hprompt, conclude, hheading, linesRead, hexpressions,
        hprompt]
      exact ⟨rfl, rfl, rfl⟩

/-! ### Two lines -/

variable {k : Calculator}

theorem tryEvaluate_eq_ok_iff {text : List Char} {r : Evaluated} :
    k.tryEvaluate text = .ok r ↔ k.evaluate text = r.mapError .error := by
  unfold tryEvaluate
  cases k.evaluate text with
  | ok v => cases r <;> simp [Except.mapError]
  | error failure => cases failure <;> cases r <;> simp [Except.mapError]

/-- The line with the last answer evaluates to the same number as the line with the expression. -/
theorem tryEvaluate_substitute (hf : k.functions.RespectAlike) (s : Session) {e line : List Char}
    {v : Decimal} (hne : normalize e ≠ []) (hv : k.evaluate e = .ok v) (hanswer : s.answer = v)
    (hdeep : ∀ err, k.tryEvaluate (replaceAnswer (parenthesized e) line) = .ok (.error err) →
      err.kind ≠ .nestingTooDeep) :
    ∃ r r', k.tryEvaluate (s.substitute line) = .ok r ∧
      k.tryEvaluate (replaceAnswer (parenthesized e) line) = .ok r' ∧ AgreeNumerically r' r := by
  obtain ⟨d, -, w, hw, rfl⟩ := exists_derivation_of_evaluate hne hv
  have hfilled := filled_replaceAnswer e (unsignedZero w).plain line
  rw [Decimal.normalize_plain] at hfilled
  have hsubst : s.substitute line = replaceAnswer (parenthesized (unsignedZero w).plain) line := by
    rw [substitute, hanswer]
    rfl
  rw [hsubst]
  simp only [tryEvaluate_eq_ok_iff] at hdeep ⊢
  generalize hL : replaceAnswer (parenthesized e) line = expanded at hfilled hdeep ⊢
  generalize hR : replaceAnswer (parenthesized (unsignedZero w).plain) line = short at hfilled ⊢
  by_cases hempty : normalize expanded = []
  · have hshort : normalize short = [] :=
      List.isEmpty_iff.mp (hfilled.isEmpty ▸ List.isEmpty_iff.mpr hempty)
    refine ⟨.ok (.ofNat 0), .ok (.ofNat 0), ?_, ?_, .ok rfl⟩
    · rw [evaluate, if_pos hshort]
      rfl
    · rw [evaluate, if_pos hempty]
      rfl
  · have hshort : ¬ normalize short = [] := fun h =>
      hempty (List.isEmpty_iff.mp (hfilled.isEmpty ▸ List.isEmpty_iff.mpr h))
    rw [evaluate_of_ne_nil hempty] at hdeep ⊢
    rw [evaluate_of_ne_nil hshort]
    rcases evaluateNormal_filled d.text_eq hw (toRat_unsignedZero w).symm hf hfilled with
      ⟨err, herr, hkind⟩ | ⟨r, r', hagree, hr, hr'⟩
    · exact absurd hkind (hdeep err herr)
    · exact ⟨r', r, hr', hr, hagree⟩

theorem report_ok (trace : Traceback) (o : Options) (s : Session) (v : Decimal) :
    (s.report trace o (.ok v)).session = { s with answer := v } ∧
      (s.report trace o (.ok v)).err = [] := by
  unfold report
  dsimp only
  cases v.display o.display <;> exact ⟨rfl, rfl⟩

/-- **The last answer stands for its expression.** In a run that reads two lines, let the first one
have a value. Then the second line, in which the last answer replaces the word, comes to the same
number as the line in which the first line replaces it, or to an error of the same kind; this is what
the run reports for it. Only where the latter line is nested too deep, the two can differ. -/
theorem run_answer_agrees {k : Calculator} (hf : k.functions.RespectAlike) (t : Surroundings)
    (s : Session) {o : Options} {layout : Layout} {e line : List Char} {v : Decimal}
    (haction : o.action = .evaluate) (hlayout : Layout.ofSettings? o.display = .ok layout)
    (hlines : linesRead t o = [e, line]) (hword : ¬ answerWord <:+: e)
    (hne : normalize e ≠ []) (hv : k.evaluate e = .ok v)
    (hdeep : ∀ err, k.tryEvaluate (replaceAnswer (parenthesized e) line) = .ok (.error err) →
      err.kind ≠ .nestingTooDeep) :
    ∃ r r', k.tryEvaluate (replaceAnswer (parenthesized e) line) = .ok r ∧
      k.tryEvaluate ({ s with answer := v }.substitute line) = .ok r' ∧ AgreeNumerically r r' ∧
      (run k t o s).session = ({ s with answer := v }.report t.traceback o r').session ∧
      (run k t o s).out = (s.report t.traceback o (.ok v)).out ++
        ({ s with answer := v }.report t.traceback o r').out ∧
      (run k t o s).err = ({ s with answer := v }.report t.traceback o r').err := by
  obtain ⟨r', r, hr', hr, hagree⟩ :=
    tryEvaluate_substitute hf { s with answer := v } hne hv rfl hdeep
  refine ⟨r, r', hr, hr', hagree, ?_⟩
  have hfirst : s.step k t.traceback o e = s.report t.traceback o (.ok v) := by
    refine step_of_tryEvaluate haction ?_
    rw [substitute, replaceAnswer_of_not_infix _ hword, tryEvaluate_eq_ok_iff]
    exact hv
  have hsecond : (s.report t.traceback o (.ok v)).session.step k t.traceback o line =
      { s with answer := v }.report t.traceback o r' := by
    rw [(report_ok t.traceback o s v).1]
    exact step_of_tryEvaluate haction hr'
  have hperform : perform k t.traceback o s [e, line] =
      ⟨⟨({ s with answer := v }.report t.traceback o r').session,
        (s.report t.traceback o (.ok v)).out ++
          ({ s with answer := v }.report t.traceback o r').out,
        ({ s with answer := v }.report t.traceback o r').err, none⟩, []⟩ := by
    rw [perform_cons _ (step_of_layout haction hlayout s e), hfirst]
    dsimp only
    rw [perform_cons _ (step_of_layout haction hlayout _ line), hsecond,
      (report_ok t.traceback o s v).2]
    simp only [perform, List.append_nil, List.nil_append]
  obtain ⟨hsession, hout, herr⟩ := run_of_layout k t s haction hlayout
  rw [hlines, hperform] at hsession hout herr
  exact ⟨hsession, hout, herr⟩

/-- Functions that know the square root of four and nothing else. -/
def rootOfFour : Double.Functions where
  power _ _ := .error .domain
  squareRoot x := if x = .ofDecimal (.ofNat 4) then .ok (.ofDecimal (.ofNat 2)) else .error .domain

theorem respectAlike_rootOfFour : rootOfFour.RespectAlike where
  power _ _ := .error _
  squareRoot h := by
    have hfour : ∀ {y : Double}, y.isZero = true → y ≠ .ofDecimal (.ofNat 4) := by
      rintro y hy rfl
      exact absurd hy (by decide +kernel)
    unfold rootOfFour
    dsimp only
    rcases h with rfl | ⟨hx, hx'⟩
    · split_ifs
      · exact .ok (.inl rfl)
      · exact .error _
    · rw [if_neg (hfour hx), if_neg (hfour hx')]
      exact .error _

/-- A digit as a term. -/
def digitTerm (n : Fin 10) : Tree .term :=
  .term (.base (.unsigned (.number (Decimal.literal (.ofNat n))))) .noFactor

/-- The tree of `5-9`. -/
def differenceTree : Tree .expression :=
  .expression (digitTerm 5) (.summand .minus (digitTerm 9) .noSummand)

/-- The tree of `√-(5-9)+(5-9)`. -/
def rootTree : Tree .expression :=
  .expression (.term (.base (.unsigned (.root (.signed .minus (.group differenceTree))))) .noFactor)
    (.summand .plus (.term (.base (.unsigned (.group differenceTree))) .noFactor) .noSummand)

/-- After `5-9`, the line `√-ans+ans` is read as `√-(-4)+(-4)` and comes to what `√-(5-9)+(5-9)`
comes to. -/
theorem run_answer_agrees_root :
    ∃ r r', Calculator.tryEvaluate ⟨.standard, rootOfFour⟩ "√-(5-9)+(5-9)".toList = .ok r ∧
      Calculator.tryEvaluate ⟨.standard, rootOfFour⟩ "√-(-4)+(-4)".toList = .ok r' ∧
      AgreeNumerically r r' := by
  have hexpanded : replaceAnswer (parenthesized "5-9".toList) "√-ans+ans".toList =
      "√-(5-9)+(5-9)".toList := by decide +kernel
  have hfirst : Calculator.evaluate ⟨.standard, rootOfFour⟩ "5-9".toList = .ok ⟨true, 4, 0⟩ :=
    evaluate_of_tree differenceTree (by decide +kernel) (by decide) (w := ⟨true, 4, 0⟩)
      (by decide +kernel)
  have hsecond : Calculator.evaluate ⟨.standard, rootOfFour⟩ "√-(5-9)+(5-9)".toList =
      .ok ⟨true, 2, 0⟩ :=
    evaluate_of_tree rootTree (by decide +kernel) (by decide) (w := ⟨true, 2, 0⟩)
      (by decide +kernel)
  have hdeep : ∀ err, Calculator.tryEvaluate ⟨.standard, rootOfFour⟩
      (replaceAnswer (parenthesized "5-9".toList) "√-ans+ans".toList) = .ok (.error err) →
      err.kind ≠ .nestingTooDeep := by
    intro err h
    rw [hexpanded, tryEvaluate_eq_ok_iff, hsecond] at h
    cases h
  obtain ⟨r, r', hr, hr', hagree, -⟩ := run_answer_agrees respectAlike_rootOfFour
    ⟨false, false, [], [], false, fun _ _ => []⟩ initial
    (o := { Options.initial with expressions := some ["5-9".toList, "√-ans+ans".toList] })
    rfl (show Layout.ofSettings? _ = .ok ⟨none, none⟩ from rfl) rfl (by decide +kernel)
    (by decide +kernel) hfirst hdeep
  have hsubstituted : ({ initial with answer := ⟨true, 4, 0⟩ } : Session).substitute
      "√-ans+ans".toList = "√-(-4)+(-4)".toList := by decide +kernel
  rw [hexpanded] at hr
  rw [hsubstituted] at hr'
  exact ⟨r, r', hr, hr', hagree⟩

end Session

end InfixCalculator
