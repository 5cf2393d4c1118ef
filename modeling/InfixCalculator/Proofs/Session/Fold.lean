import InfixCalculator.Proofs.Expression.Message
import InfixCalculator.Proofs.Session.Sources
import Mathlib

/-! # A session is a fold over its lines

The answer that a line leaves is all that a later line sees of it.

* `Session.results`: the results of the lines, each evaluated with the answer so far;
  `Session.answerAfter`: the answer that results leave.
* `Session.perform_eq`: evaluating lines shows their results, one on a line each.
* `Session.start_folds`: a run of the command line with `-e` is such a fold. -/

namespace InfixCalculator

open Text

namespace Calculator

/-- The value of a text or the error in it; nothing else comes of an evaluation. -/
def result (k : Calculator) (text : List Char) : Evaluated :=
  match h : k.evaluate text with
  | .ok v => .ok v
  | .error (.error e) => .error e
  | .error (.signal s) => absurd h (evaluate_ne_signal k text s)

theorem tryEvaluate_eq (k : Calculator) (text : List Char) :
    k.tryEvaluate text = .ok (k.result text) := by
  unfold tryEvaluate result
  split <;> rename_i h
  · split <;> simp_all
  · split <;> simp_all
  · exact absurd h (evaluate_ne_signal k text _)

end Calculator

namespace Session

/-! ### Results -/

/-- The last value among the results, or else the answer from before. -/
def answerAfter (a : Decimal) (results : List Evaluated) : Decimal :=
  (results.filterMap Except.toOption).getLastD a

/-- The results of the lines, from an answer on. Each line has the answer so far, in plain notation
and parentheses, for each `ans`. -/
def results (k : Calculator) : Decimal → List (List Char) → List Evaluated
  | _, [] => []
  | a, line :: rest =>
    let r := k.result (replaceAnswer (parenthesized a.plain) line)
    r :: results k (r.toOption.getD a) rest

/-- Some of the results are errors. -/
def someFailed (results : List Evaluated) : Bool := results.any fun r => !r.isOk

/-- What is shown for a result. -/
def shownText (layout : Layout) : Evaluated → List Char
  | .ok v => v.laidOut layout
  | .error _ => "Error".toList

/-- What is written to the standard error output for a result. -/
def errorText (trace : Traceback) (o : Options) : Evaluated → List Char
  | .ok _ => []
  | .error e => errorLines trace o e

/-- The messages of the errors among the results. -/
def messages (results : List Evaluated) : List (List Char) :=
  results.filterMap fun
    | .ok _ => none
    | .error e => some e.message

section

variable (k : Calculator) (a : Decimal) (lines : List (List Char))

theorem answerAfter_cons (r : Evaluated) (rs : List Evaluated) :
    answerAfter a (r :: rs) = answerAfter (r.toOption.getD a) rs := by
  cases r with
  | ok v => exact List.getLastD_cons
  | error e => rfl

theorem answerAfter_append (rs rs' : List Evaluated) :
    answerAfter a (rs ++ rs') = answerAfter (answerAfter a rs) rs' := by
  induction rs generalizing a with
  | nil => rfl
  | cons r rs ih => rw [List.cons_append, answerAfter_cons, answerAfter_cons, ih]

theorem results_cons {a : Decimal} {line : List Char} {r : Evaluated} {rest : List (List Char)}
    (h : k.tryEvaluate (replaceAnswer (parenthesized a.plain) line) = .ok r) :
    results k a (line :: rest) = r :: results k (r.toOption.getD a) rest := by
  have hr := Except.ok.inj ((k.tryEvaluate_eq _).symm.trans h)
  rw [results, hr]

theorem length_results : (results k a lines).length = lines.length := by
  induction lines generalizing a with
  | nil => rfl
  | cons line rest ih => rw [results, List.length_cons, List.length_cons, ih]

theorem results_take (n : ℕ) : results k a (lines.take n) = (results k a lines).take n := by
  induction lines generalizing a n with
  | nil => rw [List.take_nil, results, List.take_nil]
  | cons line rest ih =>
    cases n with
    | zero => rfl
    | succ n => rw [List.take_succ_cons, results, ih, results, List.take_succ_cons]

theorem results_append (xs ys : List (List Char)) :
    results k a (xs ++ ys) = results k a xs ++ results k (answerAfter a (results k a xs)) ys := by
  induction xs generalizing a with
  | nil => rfl
  | cons x xs ih => rw [List.cons_append, results, ih, results, answerAfter_cons, List.cons_append]

/-- **The result of a line** is that of the line with the answer of the lines before it. -/
theorem getElem?_results (i : ℕ) :
    (results k a lines)[i]? = lines[i]?.map fun line =>
      k.result (replaceAnswer (parenthesized (answerAfter a ((results k a lines).take i)).plain)
        line) := by
  induction lines generalizing a i with
  | nil => rfl
  | cons line rest ih =>
    rw [results]
    cases i with
    | zero => rfl
    | succ i =>
      rw [List.getElem?_cons_succ, List.getElem?_cons_succ, ih, List.take_succ_cons,
        answerAfter_cons]

end

/-! ### Texts -/

/-- A result is never shown like a failure. -/
theorem shownText_eq_error_iff (layout : Layout) (r : Evaluated) :
    shownText layout r = "Error".toList ↔ ∃ e, r = .error e := by
  cases r with
  | error e => exact ⟨fun _ => ⟨e, rfl⟩, fun _ => rfl⟩
  | ok v =>
    refine ⟨fun h => ?_, nofun⟩
    have hr : 'r' ∈ v.laidOut layout := by
      rw [show v.laidOut layout = "Error".toList from h]
      decide
    rcases Decimal.notationChar_laidOut hr with hmark | ⟨n, hn, hdigit⟩
    · exact absurd hmark (by decide)
    · exact absurd hdigit ((by decide : ∀ n < 10, 'r' ≠ digitChar n) n hn)

theorem visible_shownText (layout : Layout) (r : Evaluated) : Visible (shownText layout r) := by
  cases r with
  | ok v => exact v.visible_laidOut layout
  | error e =>
    show Visible "Error".toList
    exact visible_of_ascii (by decide)

theorem visible_messages (rs : List Evaluated) : ∀ m ∈ messages rs, Visible m := by
  intro m hm
  obtain ⟨r, -, hr⟩ := List.mem_filterMap.mp hm
  cases r with
  | ok v => cases hr
  | error e =>
    cases hr
    exact e.visible_message

theorem ended_append (xs ys : List (List Char)) : ended (xs ++ ys) = ended xs ++ ended ys :=
  List.flatMap_append

theorem ended_messages {trace : Traceback} {o : Options} (h : o.verbose = false)
    (rs : List Evaluated) : rs.flatMap (errorText trace o) = ended (messages rs) := by
  induction rs with
  | nil => rfl
  | cons r rs ih =>
    cases r with
    | ok v => exact ih
    | error e =>
      have herror : errorText trace o (.error e) = e.message ++ ['\n'] := by
        rw [errorText, errorLines, h, if_neg Bool.false_ne_true]
      rw [List.flatMap_cons, ih, herror]
      rfl

/-! ### Lines -/

variable {k : Calculator} {trace : Traceback} {o : Options} {layout : Layout}

/-- The session after results. -/
def after (s : Session) (rs : List Evaluated) : Session :=
  ⟨answerAfter s.answer rs, s.failed || someFailed rs⟩

theorem after_append (s : Session) (rs rs' : List Evaluated) :
    s.after (rs ++ rs') = (s.after rs).after rs' := by
  simp [after, answerAfter_append, someFailed, Bool.or_assoc]

theorem report_eq (hlayout : Layout.ofSettings? o.display = .ok layout) (s : Session)
    (r : Evaluated) :
    s.report trace o r = ⟨s.after [r], shownText layout r ++ ['\n'], errorText trace o r, none⟩ := by
  cases r with
  | ok v =>
    have hsession : s.after [.ok v] = { s with answer := v } :=
      congrArg (Session.mk v) (Bool.or_false s.failed)
    rw [hsession, report, Decimal.display, hlayout]
    rfl
  | error e =>
    have hsession : s.after [.error e] = { s with failed := true } :=
      congrArg (Session.mk s.answer) (Bool.or_true s.failed)
    rw [hsession]
    rfl

/-- **One line** is evaluated with the answer so far, and its result is shown. -/
theorem step_eq (haction : o.action = .evaluate)
    (hlayout : Layout.ofSettings? o.display = .ok layout) (s : Session) (line : List Char) :
    s.step k trace o line =
      let r := k.result (replaceAnswer (parenthesized s.answer.plain) line)
      ⟨s.after [r], shownText layout r ++ ['\n'], errorText trace o r, none⟩ := by
  rw [step_of_tryEvaluate haction (k.tryEvaluate_eq (s.substitute line)), report_eq hlayout]
  rfl

/-- **Several lines** show their results in order. -/
theorem perform_eq (haction : o.action = .evaluate)
    (hlayout : Layout.ofSettings? o.display = .ok layout) (s : Session)
    (lines : List (List Char)) :
    perform k trace o s lines =
      let rs := results k s.answer lines
      ⟨⟨s.after rs, ended (rs.map (shownText layout)), rs.flatMap (errorText trace o), none⟩,
        []⟩ := by
  induction lines generalizing s with
  | nil =>
    have hsession : s.after [] = s := congrArg (Session.mk s.answer) (Bool.or_false s.failed)
    show (⟨⟨s, [], [], none⟩, []⟩ : Performance) = ⟨⟨s.after [], [], [], none⟩, []⟩
    rw [hsession]
  | cons line rest ih =>
    have hstep := @step_eq k trace o layout haction hlayout s line
    rw [perform_cons rest (by rw [hstep]), hstep]
    dsimp only
    rw [ih]
    generalize hr : k.result (replaceAnswer (parenthesized s.answer.plain) line) = r
    have hresults : results k s.answer (line :: rest) =
        r :: results k (s.after [r]).answer rest := by
      rw [results, hr]
      cases r <;> rfl
    rw [hresults, show r :: results k (s.after [r]).answer rest = [r] ++ _ from rfl, after_append]
    rfl

/-! ### Runs -/

theorem heading_of_evaluate (haction : o.action = .evaluate) : heading o = [] := by
  rw [heading, haction]

/-- What a run with `-e` does. -/
theorem start_evaluates (k : Calculator) (t : Surroundings) (s : Session)
    {a lines : List (List Char)} (h : Options.ofArguments a = .ok o)
    (haction : o.action = .evaluate) (hexpressions : o.expressions = none)
    (hprompt : o.prompt = none) (hlayout : Layout.ofSettings? o.display = .ok layout)
    (hdash : ∀ line ∈ lines, ¬ dividerText <+: line) :
    let r := start k t (a ++ ['-', 'e'] :: lines) s
    let rs := results k s.answer lines
    r.session = s.after rs ∧ r.out = ended (rs.map (shownText layout)) ∧
      r.err = rs.flatMap (errorText t.traceback o) := by
  have hgrammar : o.action ≠ .grammar := by rw [haction]; decide
  rw [start_listed k t s hgrammar h hexpressions hprompt hdash, perform_eq haction hlayout, conclude,
    heading_of_evaluate haction]
  exact ⟨rfl, rfl, rfl⟩

/-- **A session is a fold over its lines.** A run with lines behind `-e` evaluates each of them with
the answer that the lines before it left, shows the results in order, one on a line each, and writes
the messages of the errors, one on a line each. It leaves the last value as the answer, and has failed
if one of its lines has. Lines in two runs do what they do in one. -/
theorem start_folds (k : Calculator) (t : Surroundings) {a : List (List Char)}
    (h : Options.ofArguments a = .ok o) (haction : o.action = .evaluate)
    (hexpressions : o.expressions = none) (hprompt : o.prompt = none)
    (hlayout : Layout.ofSettings? o.display = .ok layout) :
    let run := fun (s : Session) (lines : List (List Char)) =>
      start k t (a ++ ['-', 'e'] :: lines) s
    (∀ (s : Session) (lines : List (List Char)), (∀ line ∈ lines, ¬ dividerText <+: line) →
      let rs := results k s.answer lines
      rs.length = lines.length ∧
      (∀ i line, lines[i]? = some line → ∃ r, rs[i]? = some r ∧
        (run s (lines.take i)).session.answer = answerAfter s.answer (rs.take i) ∧
        k.evaluate (replaceAnswer
          (parenthesized (answerAfter s.answer (rs.take i)).plain) line) = r.mapError .error) ∧
      (run s lines).out = ended (rs.map (shownText layout)) ∧
      (∀ r, (shownText layout r = "Error".toList ↔ ∃ e, r = .error e) ∧
        ∀ x ∈ shownText layout r, x ∉ lineBreaks) ∧
      (o.verbose = false → (run s lines).err = ended (messages rs)) ∧
      (∀ m ∈ messages rs, ∀ x ∈ m, x ∉ lineBreaks) ∧
      (run s lines).session = ⟨answerAfter s.answer rs, s.failed || someFailed rs⟩) ∧
    (∀ (s : Session) (xs ys : List (List Char)), (∀ line ∈ xs ++ ys, ¬ dividerText <+: line) →
      let first := run s xs
      let second := run first.session ys
      (run s (xs ++ ys)).out = first.out ++ second.out ∧
      (run s (xs ++ ys)).err = first.err ++ second.err ∧
      (run s (xs ++ ys)).session = second.session) := by
  have hrun := fun (s : Session) (lines : List (List Char)) =>
    @start_evaluates o layout k t s a lines h haction hexpressions hprompt hlayout
  refine ⟨fun s lines hdash => ?_, fun s xs ys hdash => ?_⟩
  · obtain ⟨hsession, hout, herr⟩ := hrun s lines hdash
    refine ⟨length_results k _ lines, fun i line hline => ?_, hout,
      fun r => ⟨shownText_eq_error_iff layout r, (visible_shownText layout r).notMem_lineBreaks⟩,
      fun hverbose => ?_, fun m hm => (visible_messages _ m hm).notMem_lineBreaks, hsession⟩
    · have htake := (hrun s (lines.take i) fun l hl => hdash l (List.mem_of_mem_take hl)).1
      refine ⟨_, by rw [getElem?_results, hline]; rfl, ?_, ?_⟩
      · rw [htake, results_take]
        rfl
      · exact tryEvaluate_eq_ok_iff.mp (k.tryEvaluate_eq _)
    · rw [herr, ended_messages hverbose]
  · obtain ⟨hsession, hout, herr⟩ := hrun s (xs ++ ys) hdash
    obtain ⟨hfirst, hfirstOut, hfirstErr⟩ :=
      hrun s xs fun l hl => hdash l (List.mem_append_left _ hl)
    obtain ⟨hsecond, hsecondOut, hsecondErr⟩ :=
      hrun (s.after (results k s.answer xs)) ys fun l hl => hdash l (List.mem_append_right _ hl)
    have hresults : results k s.answer (xs ++ ys) =
        results k s.answer xs ++ results k (s.after (results k s.answer xs)).answer ys :=
      results_append k s.answer xs ys
    dsimp only
    rw [hfirst]
    refine ⟨?_, ?_, ?_⟩
    · rw [hout, hfirstOut, hsecondOut, hresults, List.map_append, ended_append]
    · rw [herr, hfirstErr, hsecondErr, hresults, List.flatMap_append]
    · rw [hsession, hsecond, hresults, after_append]

/-- The lines `1/4`, `ans/0` and `ans*2`. -/
def quarterLines : List (List Char) := ["1/4", "ans/0", "ans*2"].map String.toList

/-- After `1/4` the line `ans/0` fails, and `ans*2` is twice the quarter. -/
theorem start_folds_quarter :
    let r := start .standard ⟨true, true, [], [], false, fun _ _ => []⟩
      (["-k".toList, ['3']] ++ ['-', 'e'] :: quarterLines) initial
    r.out = "0.25\nError\n0.50\n".toList ∧
      r.err = "Divide by zero at position 6 in '(0.25)/0'\n".toList ∧
      r.session = ⟨⟨false, 50, -2⟩, true⟩ := by
  have hoptions : Options.ofArguments ["-k".toList, ['3']] =
      .ok ⟨false, ⟨.value 3, .unset⟩, none, none, .evaluate⟩ := by cbv
  obtain ⟨-, -, hout, -, herr, -, hsession⟩ :=
    (start_folds .standard ⟨true, true, [], [], false, fun _ _ => []⟩ hoptions rfl rfl rfl
      (show Layout.ofSettings? _ = .ok ⟨some 3, none⟩ from rfl)).1 initial quarterLines (by decide)
  have hresults : results .standard initial.answer quarterLines =
      [.ok ⟨false, 25, -2⟩, .error ⟨"(0.25)/0".toList, .divisionByZero 6⟩,
        .ok ⟨false, 50, -2⟩] := by
    show results .standard initial.answer ["1/4".toList, "ans/0".toList, "ans*2".toList] = _
    rw [results_cons .standard (r := .ok ⟨false, 25, -2⟩) (by cbv),
      results_cons .standard (r := .error ⟨"(0.25)/0".toList, .divisionByZero 6⟩) (by cbv),
      results_cons .standard (r := .ok ⟨false, 50, -2⟩) (by cbv)]
    rfl
  dsimp only
  rw [hout, herr rfl, hsession, hresults]
  refine ⟨?_, ?_, ?_⟩
  · decide +kernel
  · decide +kernel
  · rfl

end Session

end InfixCalculator
