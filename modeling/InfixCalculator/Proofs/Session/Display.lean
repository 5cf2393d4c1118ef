import InfixCalculator.Proofs.Session.Fold

/-! # The display does not feed back

How results are shown has no influence on what is computed: the answer is remembered as it is, and a
later line gets all of its digits.

* `DisplaySettings.valid_iff`: the settings that have a layout.
* `Session.Effect.Alike`: effects that differ in what they show; `Session.alike_step`,
  `Session.alike_perform`: lines under different settings come to such effects.
* `Session.start_display`: so do runs of the command line. -/

namespace InfixCalculator

/-- A precision, if there is one, is between zero and the greatest; a width, if there is one, is any
integer. -/
structure DisplaySettings.Valid (d : DisplaySettings) : Prop where
  precision : d.precision = .unset ∨
    ∃ n : ℤ, 0 ≤ n ∧ n ≤ 999999999999999999 ∧ d.precision = .value n
  width : d.width = .unset ∨ ∃ n : ℤ, d.width = .value n

namespace Layout

theorem digits?_eq_ok_iff {p : Setting} :
    (∃ digits, digits? p = .ok digits) ↔
      p = .unset ∨ ∃ n : ℤ, 0 ≤ n ∧ n ≤ 999999999999999999 ∧ p = .value n := by
  have hgreatest : (Precision.greatest : ℤ) = 999999999999999999 := rfl
  cases p with
  | unset => exact ⟨fun _ => .inl rfl, fun _ => ⟨none, rfl⟩⟩
  | void =>
    constructor
    · rintro ⟨digits, h⟩
      cases h
    · rintro (h | ⟨n, -, -, h⟩) <;> cases h
  | value n =>
    constructor
    · rintro ⟨digits, h⟩
      rw [digits?] at h
      split_ifs at h with hword hgreat
      exact .inr ⟨n, by omega, by omega, rfl⟩
    · rintro (h | ⟨m, hm, hgreat, h⟩)
      · cases h
      · cases h
        rw [digits?, if_neg (by omega), if_neg (by omega)]
        exact ⟨_, rfl⟩

theorem width?_eq_ok_iff {w : Setting} :
    (∃ width, width? w = .ok width) ↔ w = .unset ∨ ∃ n : ℤ, w = .value n := by
  cases w with
  | unset => exact ⟨fun _ => .inl rfl, fun _ => ⟨none, rfl⟩⟩
  | void =>
    constructor
    · rintro ⟨width, h⟩
      cases h
    · rintro (h | ⟨n, h⟩) <;> cases h
  | value n => exact ⟨fun _ => .inr ⟨n, rfl⟩, fun _ => ⟨some n, rfl⟩⟩

end Layout

/-- **Settings have a layout** where they are valid. -/
theorem DisplaySettings.valid_iff {d : DisplaySettings} :
    d.Valid ↔ ∃ layout, Layout.ofSettings? d = .ok layout := by
  constructor
  · rintro ⟨hprecision, hwidth⟩
    obtain ⟨digits, hdigits⟩ := Layout.digits?_eq_ok_iff.mpr hprecision
    obtain ⟨width, hwidth⟩ := Layout.width?_eq_ok_iff.mpr hwidth
    rw [Layout.ofSettings?, hdigits, hwidth]
    exact ⟨_, rfl⟩
  · rintro ⟨layout, h⟩
    unfold Layout.ofSettings? at h
    cases hdigits : Layout.digits? d.precision with
    | error e => rw [hdigits] at h; cases h
    | ok digits =>
      cases hwidth : Layout.width? d.width with
      | error e => rw [hdigits, hwidth] at h; cases h
      | ok width =>
        exact ⟨Layout.digits?_eq_ok_iff.mp ⟨_, hdigits⟩, Layout.width?_eq_ok_iff.mp ⟨_, hwidth⟩⟩

/-- The options with other settings of the display. -/
def Options.withDisplay (o : Options) (d : DisplaySettings) : Options := { o with display := d }

theorem Options.action_withDisplay (o : Options) (d : DisplaySettings) :
    (o.withDisplay d).action = o.action := rfl

namespace Session

/-- The effects differ at most in what is written to the standard output. -/
structure Effect.Alike (e e' : Effect) : Prop where
  session : e.session = e'.session
  err : e.err = e'.err
  fault : e.fault = e'.fault

variable {k : Calculator} {trace : Traceback} {o : Options} {d d' : DisplaySettings}

/-! ### Lines -/

/-- The settings matter only to what is shown of results. -/
theorem step_display (haction : o.action ≠ .evaluate) (d d' : DisplaySettings) (s : Session)
    (line : List Char) :
    step k trace (o.withDisplay d) s line = step k trace (o.withDisplay d') s line := by
  rw [step, step, Options.action_withDisplay, Options.action_withDisplay]
  cases h : o.action with
  | evaluate => exact absurd h haction
  | dump => rfl
  | grammar => rfl

theorem perform_display (haction : o.action ≠ .evaluate) (d d' : DisplaySettings) (s : Session)
    (lines : List (List Char)) :
    perform k trace (o.withDisplay d) s lines = perform k trace (o.withDisplay d') s lines := by
  induction lines generalizing s with
  | nil => rfl
  | cons line rest ih =>
    rw [perform, perform, step_display haction d d']
    simp only [ih]

/-- **A line does the same** under all settings, except for what it shows of its result. -/
theorem alike_step (hd : d.Valid) (hd' : d'.Valid) (s : Session) (line : List Char) :
    (step k trace (o.withDisplay d) s line).Alike (step k trace (o.withDisplay d') s line) := by
  by_cases haction : o.action = .evaluate
  · obtain ⟨layout, hlayout⟩ := DisplaySettings.valid_iff.mp hd
    obtain ⟨layout', hlayout'⟩ := DisplaySettings.valid_iff.mp hd'
    rw [step_eq (o := o.withDisplay d) haction hlayout,
      step_eq (o := o.withDisplay d') haction hlayout']
    exact ⟨rfl, rfl, rfl⟩
  · rw [step_display haction d d']
    exact ⟨rfl, rfl, rfl⟩

theorem fault_step_of_valid (hd : d.Valid) (s : Session) (line : List Char) :
    (step k trace (o.withDisplay d) s line).fault = none := by
  obtain ⟨layout, hlayout⟩ := DisplaySettings.valid_iff.mp hd
  exact fault_step (o := o.withDisplay d) hlayout s line

/-- **Lines do the same** under all settings, except for what they show. -/
theorem alike_perform (hd : d.Valid) (hd' : d'.Valid) (s : Session) (lines : List (List Char)) :
    (perform k trace (o.withDisplay d) s lines).Alike
      (perform k trace (o.withDisplay d') s lines).toEffect := by
  induction lines generalizing s with
  | nil => exact ⟨rfl, rfl, rfl⟩
  | cons line rest ih =>
    have hstep := @alike_step k trace o d d' hd hd' s line
    rw [perform_cons rest (fault_step_of_valid hd s line),
      perform_cons rest (fault_step_of_valid hd' s line)]
    dsimp only
    rw [hstep.session, hstep.err]
    obtain ⟨hsession, herr, hfault⟩ := ih (step k trace (o.withDisplay d') s line).session
    exact ⟨hsession, by rw [herr], hfault⟩

/-! ### Runs -/

/-- No line is looked at where the grammar is shown. -/
theorem perform_grammar (haction : o.action = .grammar) (s : Session) (lines : List (List Char)) :
    perform k trace o s lines = ⟨⟨s, [], [], none⟩, []⟩ := by
  induction lines with
  | nil => rfl
  | cons line rest ih =>
    have hstep : step k trace o s line = ⟨s, [], [], none⟩ := by rw [step, haction]
    rw [perform_cons rest (by rw [hstep]), hstep]
    dsimp only
    rw [ih]
    rfl

/-- **A run is its lines**: all else in it is the same under all settings. -/
theorem exists_run_eq (k : Calculator) (t : Surroundings) (o : Options) (s : Session) :
    ∃ prompt unread, ∀ d : DisplaySettings, d.Valid →
      let o' := o.withDisplay d
      run k t o' s = conclude o' prompt (prompt.isSome && t.interrupted)
        (perform k t.traceback o' s (linesRead t o)).toEffect unread := by
  by_cases haction : o.action = .grammar
  · refine ⟨none, t.piped, fun d _ => ?_⟩
    dsimp only
    rw [perform_grammar (o := o.withDisplay d) haction, run, Options.action_withDisplay,
      if_pos haction]
    rfl
  cases hexpressions : o.expressions with
  | some lines =>
    refine ⟨none, t.piped, fun d _ => ?_⟩
    dsimp only
    rw [run_listed (o := o.withDisplay d) haction hexpressions, linesRead, hexpressions]
    rfl
  | none =>
    cases hprompt : promptOf o t with
    | some prompt =>
      refine ⟨some prompt, t.piped, fun d hd => ?_⟩
      obtain ⟨layout, hlayout⟩ := DisplaySettings.valid_iff.mp hd
      dsimp only
      rw [run_typed (o := o.withDisplay d) haction hexpressions hprompt hlayout, linesRead,
        hexpressions, hprompt]
      rfl
    | none =>
      refine ⟨none, [], fun d hd => ?_⟩
      have hunread := (perform_of_noAbort (@fault_step_of_valid k t.traceback o d hd) s t.piped).2
      dsimp only
      rw [run_piped (o := o.withDisplay d) haction hexpressions hprompt, linesRead,
        hexpressions, hprompt, hunread]
      rfl

/-- **The display does not feed back.** Let the arguments of two runs differ in the settings of the
display alone. Then the runs leave the same session after each of their lines, write the same to the
standard error output and end in the same way. If they evaluate, they show the same results, each in
its layout, and if not, they write the same. -/
theorem start_display (k : Calculator) (t : Surroundings) (s : Session) {a a' : List (List Char)}
    (h : Options.ofArguments a = .ok (o.withDisplay d))
    (h' : Options.ofArguments a' = .ok (o.withDisplay d')) (hd : d.Valid) (hd' : d'.Valid) :
    let r := start k t a s
    let r' := start k t a' s
    let lines := linesRead t o
    (∀ n, (perform k t.traceback (o.withDisplay d) s (lines.take n)).session =
      (perform k t.traceback (o.withDisplay d') s (lines.take n)).session) ∧
    r.session = (perform k t.traceback (o.withDisplay d) s lines).session ∧ r.session = r'.session ∧
    r.err = r'.err ∧ r.ending = r'.ending ∧ r.prompt = r'.prompt ∧ r.unread = r'.unread ∧
    (o.action ≠ .evaluate → r.out = r'.out) ∧
    (o.action = .evaluate → ∃ layout layout', Layout.ofSettings? d = .ok layout ∧
      Layout.ofSettings? d' = .ok layout' ∧
      let rs := results k s.answer lines
      r.out = ended (rs.map (shownText layout)) ∧ r'.out = ended (rs.map (shownText layout')) ∧
      ∀ e ∈ rs, shownText layout e = "Error".toList ↔ shownText layout' e = "Error".toList) := by
  obtain ⟨prompt, unread, hrun⟩ := exists_run_eq k t o s
  have hstart : start k t a s = run k t (o.withDisplay d) s := by rw [start, h]
  have hstart' : start k t a' s = run k t (o.withDisplay d') s := by rw [start, h']
  have halike := fun lines => @alike_perform k t.traceback o d d' hd hd' s lines
  dsimp only
  rw [hstart, hstart', hrun d hd, hrun d' hd']
  refine ⟨fun n => (halike _).session, rfl, (halike _).session, (halike _).err, ?_, rfl, rfl,
    fun haction => ?_, fun haction => ?_⟩
  · show endingOf _ _ _ = endingOf _ _ _
    rw [endingOf, endingOf, (halike _).session, (halike _).fault]
  · show heading _ ++ _ = heading _ ++ _
    rw [perform_display haction d d']
    rfl
  · obtain ⟨layout, hlayout⟩ := DisplaySettings.valid_iff.mp hd
    obtain ⟨layout', hlayout'⟩ := DisplaySettings.valid_iff.mp hd'
    refine ⟨layout, layout', hlayout, hlayout', ?_, ?_, fun e _ => ?_⟩
    · show heading (o.withDisplay d) ++ _ = _
      rw [heading_of_evaluate (o := o.withDisplay d) haction,
        perform_eq (o := o.withDisplay d) haction hlayout]
      rfl
    · show heading (o.withDisplay d') ++ _ = _
      rw [heading_of_evaluate (o := o.withDisplay d') haction,
        perform_eq (o := o.withDisplay d') haction hlayout']
      rfl
    · rw [shownText_eq_error_iff, shownText_eq_error_iff]

/-- The lines `1/4` and `ans*4`. -/
def fractionLines : List (List Char) := ["1/4", "ans*4"].map String.toList

/-- Both digits of `0.25` are multiplied, whether one digit is shown or as many as fit into three
characters. -/
theorem start_display_fraction :
    let t : Surroundings := ⟨true, true, [], [], false, fun _ _ => []⟩
    let r := start .standard t (["-k".toList, ['1'], ['-', 'e']] ++ fractionLines) initial
    let r' := start .standard t (["-w".toList, ['3'], ['-', 'e']] ++ fractionLines) initial
    r.session = r'.session ∧ r.out = "0.2\n1\n".toList ∧
      r'.out = "0.2\n1.0\n".toList := by
  have h : Options.ofArguments (["-k".toList, ['1'], ['-', 'e']] ++ fractionLines) =
      .ok (({ Options.initial with expressions := some fractionLines } : Options).withDisplay
        ⟨.value 1, .unset⟩) := by cbv
  have h' : Options.ofArguments (["-w".toList, ['3'], ['-', 'e']] ++ fractionLines) =
      .ok (({ Options.initial with expressions := some fractionLines } : Options).withDisplay
        ⟨.unset, .value 3⟩) := by cbv
  obtain ⟨-, -, hsession, -, -, -, -, -, hshown⟩ :=
    start_display .standard ⟨true, true, [], [], false, fun _ _ => []⟩ initial h h'
      ⟨.inr ⟨1, by decide, by decide, rfl⟩, .inl rfl⟩ ⟨.inl rfl, .inr ⟨3, rfl⟩⟩
  obtain ⟨layout, layout', hlayout, hlayout', hout, hout', -⟩ := hshown rfl
  cases hlayout
  cases hlayout'
  have hresults : results .standard initial.answer ["1/4".toList, "ans*4".toList] =
      [.ok ⟨false, 25, -2⟩, .ok ⟨false, 100, -2⟩] := by
    rw [results_cons .standard (r := .ok ⟨false, 25, -2⟩) (by cbv),
      results_cons .standard (r := .ok ⟨false, 100, -2⟩) (by cbv)]
    rfl
  refine ⟨hsession, ?_, ?_⟩
  · refine (hout.trans (congrArg _ (congrArg _ hresults))).trans ?_
    decide +kernel
  · refine (hout'.trans (congrArg _ (congrArg _ hresults))).trans ?_
    decide +kernel

end Session

end InfixCalculator
