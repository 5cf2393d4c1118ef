import InfixCalculator.Proofs.Session.Display

/-! # The exit status over several runs

A session remembers that a line has failed, but not whether it was typed at a prompt.

* `Session.failsSome`: whether one of several lines fails; `Session.failed_perform`: the session
  remembers just that.
* `Session.Call`: a run to come; `Session.ever`: whether some run has a property, among those that
  follow each other.
* `Session.status_calls`: the exit status after any runs, and when it is the one that counts failures
  outside of prompting runs only. -/

namespace InfixCalculator

open Calculator

namespace Session

variable {k : Calculator} {trace : Traceback} {o : Options}

/-! ### Lines -/

/-- The line fails. -/
def failsLine (k : Calculator) (o : Options) (s : Session) (line : List Char) : Bool :=
  match o.action with
  | .evaluate => !(k.result (s.substitute line)).isOk
  | .dump => ((tokenize (normalize line)).error? (normalize line)).isSome
  | .grammar => false

/-- Some of the lines fail, if they are taken in order. -/
def failsSome (k : Calculator) (trace : Traceback) (o : Options) (s : Session) :
    List (List Char) → Bool
  | [] => false
  | line :: rest =>
    s.failsLine k o line || failsSome k trace o (s.step k trace o line).session rest

theorem failed_step (s : Session) (line : List Char) :
    (s.step k trace o line).session.failed = (s.failed || s.failsLine k o line) := by
  cases haction : o.action with
  | evaluate =>
    rw [step_of_tryEvaluate haction (k.tryEvaluate_eq _), failsLine, haction]
    dsimp only
    cases k.result (s.substitute line) with
    | ok v =>
      rw [(report_ok trace o s v).1]
      exact (Bool.or_false _).symm
    | error e => exact (Bool.or_true _).symm
  | dump =>
    rw [step, failsLine, haction]
    unfold dumpLine
    dsimp only
    cases (tokenize (normalize line)).error? (normalize line) with
    | none => exact (Bool.or_false _).symm
    | some e => exact (Bool.or_true _).symm
  | grammar =>
    rw [step, failsLine, haction]
    exact (Bool.or_false _).symm

/-- **A session has failed** if it had before or one of the lines fails. -/
theorem failed_perform (hstep : ∀ s line, (step k trace o s line).fault = none) (s : Session)
    (lines : List (List Char)) :
    (perform k trace o s lines).session.failed = (s.failed || s.failsSome k trace o lines) := by
  induction lines generalizing s with
  | nil => exact (Bool.or_false _).symm
  | cons line rest ih =>
    rw [perform_cons rest (hstep s line)]
    dsimp only
    rw [ih, failed_step, failsSome, Bool.or_assoc]

/-! ### Runs -/

/-- A run to come: what surrounds it and its arguments. -/
structure Call where
  surroundings : Surroundings
  arguments : List (List Char)

namespace Call

/-- The run in a session. -/
def start (k : Calculator) (c : Call) (s : Session) : Run :=
  Session.start k c.surroundings c.arguments s

/-- The arguments are in order, and so are the settings of the display. -/
def Valid (c : Call) : Prop := ∃ o, Options.ofArguments c.arguments = .ok o ∧ o.display.Valid

/-- The run has a line that fails. -/
def fails (k : Calculator) (c : Call) (s : Session) : Bool :=
  match Options.ofArguments c.arguments with
  | .ok o => s.failsSome k c.surroundings.traceback o (linesRead c.surroundings o)
  | .error _ => false

/-- The run prompts, and the typing is interrupted. -/
def interrupted (k : Calculator) (c : Call) (s : Session) : Bool :=
  (c.start k s).prompt.isSome && c.surroundings.interrupted

/-- The run has a line that fails, and does not prompt. -/
def failsOutside (k : Calculator) (c : Call) (s : Session) : Bool :=
  c.fails k s && (c.start k s).prompt.isNone

end Call

variable {c : Call}

/-- **What a run leaves and how it ends.** -/
theorem start_of_valid (hc : c.Valid) (s : Session) :
    (c.start k s).session.failed = (s.failed || c.fails k s) ∧
      (c.interrupted k s = false → (c.start k s).ending =
        .exit (status (c.start k s).prompt.isSome (c.start k s).session)) := by
  obtain ⟨o, ho, hd⟩ := hc
  obtain ⟨prompt, unread, hrun⟩ := exists_run_eq k c.surroundings o s
  have hfault : ∀ s line, (step k c.surroundings.traceback o s line).fault = none :=
    fault_step_of_valid (o := o) hd
  have hstart : c.start k s = conclude o prompt (prompt.isSome && c.surroundings.interrupted)
      (perform k c.surroundings.traceback o s (linesRead c.surroundings o)).toEffect unread := by
    rw [Call.start, Session.start, ho]
    exact hrun o.display hd
  have hnone := (perform_of_noAbort hfault s (linesRead c.surroundings o)).1
  rw [Call.interrupted, Call.fails, ho, hstart]
  refine ⟨failed_perform hfault s _, fun hend => ?_⟩
  rw [conclude] at hend ⊢
  dsimp only at hend ⊢
  rw [endingOf, hnone, hend]
  rfl

/-! ### Runs that follow each other -/

/-- The session after runs. -/
def afterCalls (k : Calculator) : Session → List Call → Session :=
  List.foldl fun s c => (c.start k s).session

/-- Some run has the property, among those that follow each other. -/
def ever (k : Calculator) (p : Call → Session → Bool) : Session → List Call → Bool
  | _, [] => false
  | s, c :: rest => p c s || ever k p (c.start k s).session rest

variable {calls : List Call}

/-- **The session remembers** that a line has failed in some run. -/
theorem failed_afterCalls (h : ∀ c ∈ calls, c.Valid) (s : Session) :
    (afterCalls k s calls).failed = (s.failed || ever k (Call.fails k) s calls) := by
  induction calls generalizing s with
  | nil => exact (Bool.or_false _).symm
  | cons c rest ih =>
    have hc := (start_of_valid (k := k) (h c List.mem_cons_self) s).1
    have hrest := ih (fun c hc => h c (List.mem_cons_of_mem _ hc)) (c.start k s).session
    rw [hc, Bool.or_assoc] at hrest
    exact hrest

theorem ever_mono {p q : Call → Session → Bool} (hpq : ∀ c s, p c s = true → q c s = true)
    (s : Session) : ever k p s calls = true → ever k q s calls = true := by
  induction calls generalizing s with
  | nil => exact id
  | cons c rest ih =>
    rw [ever, ever, Bool.or_eq_true, Bool.or_eq_true]
    exact Or.imp (hpq c s) (ih _)

/-- **The exit status after any runs.** A run in order that is not interrupted exits with one if it
does not prompt and a line has failed in it or in a run before it, at a prompt or not, and with zero
otherwise. That is the status that counts failures outside of prompting runs only, except where the
run does not prompt and lines have failed in prompting runs only. -/
theorem status_calls (k : Calculator) {earlier : List Call} {c : Call}
    (h : ∀ call ∈ earlier, call.Valid) (hc : c.Valid)
    (hend : c.interrupted k (afterCalls k initial earlier) = false) :
    let r := c.start k (afterCalls k initial earlier)
    let failed := ever k (Call.fails k) initial (earlier ++ [c])
    let failedOutside := ever k (Call.failsOutside k) initial (earlier ++ [c])
    r.ending = .exit (if r.prompt.isNone && failed then 1 else 0) ∧
      (r.ending = .exit (if r.prompt.isNone && failedOutside then 1 else 0) ↔
        ¬ (r.prompt = none ∧ failed = true ∧ failedOutside = false)) := by
  have hvalid : ∀ call ∈ earlier ++ [c], call.Valid := by
    simpa [or_imp, forall_and] using ⟨h, hc⟩
  have hsession : afterCalls k initial (earlier ++ [c]) =
      (c.start k (afterCalls k initial earlier)).session := List.foldl_concat ..
  have hfailed := failed_afterCalls (k := k) hvalid initial
  rw [hsession, show initial.failed = false from rfl, Bool.false_or] at hfailed
  have houtside : ever k (Call.failsOutside k) initial (earlier ++ [c]) = true →
      ever k (Call.fails k) initial (earlier ++ [c]) = true :=
    ever_mono (fun call s hcall => (Bool.and_eq_true_iff.mp hcall).1) initial
  dsimp only
  rw [(start_of_valid hc _).2 hend, status, hfailed]
  cases (c.start k (afterCalls k initial earlier)).prompt with
  | some prompt => simp
  | none =>
    cases hinside : ever k (Call.fails k) initial (earlier ++ [c]) with
    | false =>
      have hnot : ever k (Call.failsOutside k) initial (earlier ++ [c]) = false :=
        Bool.eq_false_iff.mpr fun h => Bool.false_ne_true (hinside.symm.trans (houtside h))
      simp [hnot]
    | true => simp

/-! ### A failure at a prompt -/

/-- The line `1/0` is typed at a prompt. -/
def promptCall : Call := ⟨⟨false, false, [], ["1/0".toList], false, fun _ _ => []⟩, [['-', 'p']]⟩

/-- The line `2` stands behind `-e`. -/
def listedCall : Call := ⟨⟨false, false, [], [], false, fun _ _ => []⟩, [['-', 'e'], ['2']]⟩

/-- The options of `promptCall`. -/
def promptOptions : Options := { Options.initial with prompt := some standardPrompt }

/-- The options of `listedCall`. -/
def listedOptions : Options := { Options.initial with expressions := some [['2']] }

theorem ofArguments_promptCall : Options.ofArguments promptCall.arguments = .ok promptOptions := by
  cbv

theorem ofArguments_listedCall : Options.ofArguments listedCall.arguments = .ok listedOptions := by
  cbv

theorem valid_promptCall : promptCall.Valid :=
  ⟨_, ofArguments_promptCall, ⟨.inl rfl, .inl rfl⟩⟩

theorem valid_listedCall : listedCall.Valid :=
  ⟨_, ofArguments_listedCall, ⟨.inl rfl, .inl rfl⟩⟩

theorem start_promptCall : (promptCall.start .standard initial).session = ⟨.ofNat 0, true⟩ ∧
    (promptCall.start .standard initial).prompt = some standardPrompt := by
  have hresults : results .standard initial.answer ["1/0".toList] =
      [.error ⟨"1/0".toList, .divisionByZero 1⟩] := by
    rw [results_cons .standard (r := .error ⟨"1/0".toList, .divisionByZero 1⟩) (by cbv), results]
  rw [Call.start, start, ofArguments_promptCall]
  dsimp only
  rw [run_typed (o := promptOptions) (by decide) rfl rfl
    (show Layout.ofSettings? _ = .ok ⟨none, none⟩ from rfl),
    perform_eq (o := promptOptions) rfl (show Layout.ofSettings? _ = .ok ⟨none, none⟩ from rfl)]
  exact ⟨congrArg (after initial) hresults, rfl⟩

theorem start_listedCall (s : Session) : (listedCall.start .standard s).prompt = none ∧
    listedCall.fails .standard s = false := by
  have hresult : Calculator.standard.result (s.substitute ['2']) = .ok (.ofNat 2) :=
    Except.ok.inj ((Calculator.standard.tryEvaluate_eq ['2']).symm.trans (by cbv))
  constructor
  · rw [Call.start, start, ofArguments_listedCall]
    dsimp only
    rw [run_listed (o := listedOptions) (by decide) rfl]
    rfl
  · rw [Call.fails, ofArguments_listedCall]
    show (s.failsLine .standard listedOptions ['2'] || false) = false
    rw [Bool.or_false, failsLine]
    show (!(Calculator.standard.result (s.substitute ['2'])).isOk) = false
    rw [hresult]
    rfl

theorem fails_promptCall : promptCall.fails .standard initial = true := by
  have h := (start_of_valid (k := .standard) valid_promptCall initial).1
  rw [start_promptCall.1] at h
  exact h.symm

theorem not_failsOutside_calls :
    ever .standard (Call.failsOutside .standard) initial [promptCall, listedCall] = false := by
  rw [ever, ever, ever, Call.failsOutside, Call.failsOutside, start_promptCall.2,
    (start_listedCall _).2, Option.isNone_some, Bool.and_false]
  rfl

theorem not_interrupted_listedCall (s : Session) : listedCall.interrupted .standard s = false := by
  rw [Call.interrupted, (start_listedCall s).1]
  rfl

/-- A line that failed at a prompt makes a run exit with one that does not prompt and whose only line
has a value. -/
theorem status_counts_prompt :
    let r := listedCall.start .standard (afterCalls .standard initial [promptCall])
    r.prompt = none ∧
      ever .standard (Call.failsOutside .standard) initial [promptCall, listedCall] = false ∧
      r.ending = .exit 1 := by
  have hsession : afterCalls .standard initial [promptCall] = ⟨.ofNat 0, true⟩ :=
    start_promptCall.1
  rw [hsession]
  obtain ⟨hprompt, -⟩ := start_listedCall ⟨.ofNat 0, true⟩
  obtain ⟨hfailed, hending⟩ :=
    start_of_valid (k := .standard) valid_listedCall ⟨.ofNat 0, true⟩
  refine ⟨hprompt, not_failsOutside_calls, ?_⟩
  rw [hending (not_interrupted_listedCall _), hprompt, status, hfailed]
  rfl

/-- The exit status after `promptCall` and `listedCall`. -/
theorem status_calls_prompt :
    let r := listedCall.start .standard (afterCalls .standard initial [promptCall])
    r.ending = .exit 1 ∧ r.ending ≠
      .exit (if ever .standard (Call.failsOutside .standard) initial [promptCall, listedCall]
        then 1 else 0) := by
  obtain ⟨hending, -⟩ := status_calls .standard
    (List.forall_mem_singleton.mpr valid_promptCall) valid_listedCall (not_interrupted_listedCall _)
  have hfails : ever .standard (Call.fails .standard) initial ([promptCall] ++ [listedCall]) = true := by
    rw [List.singleton_append, ever, fails_promptCall, Bool.true_or]
  have hone : (listedCall.start .standard (afterCalls .standard initial [promptCall])).ending =
      .exit 1 := by
    rw [hending, (start_listedCall _).1, hfails]
    rfl
  refine ⟨hone, ?_⟩
  rw [hone, not_failsOutside_calls]
  simp

end Session

end InfixCalculator
