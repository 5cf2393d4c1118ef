import InfixCalculator.Proofs.CommandLine.Appended
import InfixCalculator.Proofs.Session.Answer
import Mathlib.Data.List.SplitBy

/-! # Where the lines of a run come from

Lines can stand behind `-e`, come from the standard input, or be typed at a prompt. It makes no
difference to what they do.

* `Session.linesOf_ended`: the lines of the standard input are those that were written to it.
* `Session.step_newline`: the line feed that ends a line is not seen.
* `Session.Brings`: the ways in which lines come to a run; `Session.start_of_brings`: what the run
  then does is what the lines do.
* `Session.start_agrees`: hence it is the same in all ways. -/

namespace InfixCalculator

open Calculator

namespace Session

/-! ### Lines of the standard input -/

/-- The text that consists of the lines, each ended by a line feed. -/
def ended (lines : List (List Char)) : List Char := lines.flatMap (· ++ ['\n'])

theorem isChain_line {line : List Char} (h : '\n' ∉ line) :
    (line ++ ['\n']).IsChain fun c _ => decide (c ≠ '\n') = true := by
  induction line with
  | nil => exact List.isChain_singleton _
  | cons c rest ih =>
    rw [List.mem_cons, not_or] at h
    refine List.isChain_cons.mpr ⟨fun _ _ => by simpa using Ne.symm h.1, ih h.2⟩

/-- **The lines of a text** in which each line was ended by a line feed. -/
theorem linesOf_ended {lines : List (List Char)} (h : ∀ line ∈ lines, '\n' ∉ line) :
    linesOf (ended lines) = lines.map (· ++ ['\n']) := by
  induction lines with
  | nil => rfl
  | cons line rest ih =>
    have hrest := ih fun l hl => h l (List.mem_cons_of_mem _ hl)
    have hline : linesOf (line ++ ['\n']) = [line ++ ['\n']] :=
      List.splitBy_of_isChain (List.append_ne_nil_of_right_ne_nil _ (List.cons_ne_nil _ _))
        (isChain_line (h line List.mem_cons_self))
    have hsplit : linesOf (line ++ ['\n'] ++ ended rest) =
        linesOf (line ++ ['\n']) ++ linesOf (ended rest) := by
      refine List.splitBy_append fun x hx y _ => ?_
      obtain rfl : '\n' = x := by simpa using hx
      rfl
    rw [List.map_cons, ← hrest]
    show linesOf (line ++ ['\n'] ++ ended rest) = _
    rw [hsplit, hline, List.singleton_append]

theorem replaceAnswer_newline (replacement line : List Char) :
    replaceAnswer replacement (line ++ ['\n']) = replaceAnswer replacement line ++ ['\n'] := by
  fun_induction replaceAnswer replacement line with
  | case1 rest ih =>
    rw [List.cons_append, List.cons_append, List.cons_append, replaceAnswer, ih, List.append_assoc]
  | case2 c rest hword ih =>
    rw [List.cons_append, replaceAnswer, ih, List.cons_append]
    -- The line feed completes no word.
    rintro tail hc htail
    cases rest with
    | nil => cases htail
    | cons x xs =>
      cases xs with
      | nil => cases htail
      | cons y ys =>
        cases htail
        exact hword ys hc rfl
  | case3 => rfl

theorem normalize_newline (text : List Char) : normalize (text ++ ['\n']) = normalize text := by
  rw [normalize_append, show normalize ['\n'] = [] by decide +kernel, List.append_nil]

/-- **The line feed that ends a line is not seen.** -/
theorem step_newline (k : Calculator) (trace : Traceback) (o : Options) (s : Session) (line : List Char) :
    s.step k trace o (line ++ ['\n']) = s.step k trace o line := by
  have hevaluate : ∀ text, k.tryEvaluate (text ++ ['\n']) = k.tryEvaluate text := fun text => by
    unfold tryEvaluate evaluate
    rw [normalize_newline]
  unfold step
  cases o.action with
  | evaluate => simp only [evaluateLine, substitute, replaceAnswer_newline, hevaluate]
  | dump => simp only [dumpLine, normalize_newline]
  | grammar => rfl

/-! ### Lines that do the same -/

variable {k : Calculator} {trace : Traceback} {o o' : Options} {layout : Layout}

/-- With a layout, no line aborts, whatever is done with it. -/
theorem fault_step (hlayout : Layout.ofSettings? o.display = .ok layout) (s : Session)
    (line : List Char) : (step k trace o s line).fault = none := by
  cases haction : o.action with
  | evaluate => exact step_of_layout haction hlayout s line
  | dump =>
    rw [step, haction]
    dsimp only
    unfold dumpLine
    dsimp only
    split <;> rfl
  | grammar =>
    rw [step, haction]

/-- What lines do depends neither on where they come from nor on a prompt. -/
theorem perform_with (o : Options) (expressions : Option (List (List Char)))
    (prompt : Option (List Char)) (s : Session) (lines : List (List Char)) :
    perform k trace { o with expressions, prompt } s lines = perform k trace o s lines := by
  induction lines generalizing s with
  | nil => rfl
  | cons line rest ih =>
    have hstep : step k trace { o with expressions, prompt } s line = step k trace o s line := rfl
    rw [perform, perform, hstep]
    simp only [ih]

/-- Lines that are changed do the same if each of them does. -/
theorem perform_map {f : List Char → List Char}
    (hf : ∀ s line, step k trace o s (f line) = step k trace o s line)
    (h : ∀ s line, (step k trace o s line).fault = none) (s : Session) (lines : List (List Char)) :
    (perform k trace o s (lines.map f)).toEffect = (perform k trace o s lines).toEffect := by
  induction lines generalizing s with
  | nil => rfl
  | cons line rest ih =>
    have hfault : (step k trace o s (f line)).fault = none := by rw [hf, h]
    rw [List.map_cons, perform_cons _ hfault, perform_cons _ (h s line), hf]
    dsimp only
    rw [ih]

/-! ### Ways to bring lines -/

/-- Where lines come from. -/
inductive Source where
  /-- They stand behind `-e`. -/
  | listed
  /-- They are the lines of the standard input. -/
  | piped
  /-- They are typed at a prompt. -/
  | typed
deriving DecidableEq

/-- **The ways in which lines come to a run** whose other arguments ask for the options `o`, in a
program whose tracebacks are `trace`. The standard input is read if there is no prompt, neither wanted
nor because both ends are terminals. The typing ends with the input, not by an interrupt. -/
inductive Brings (trace : Traceback) (o : Options) (lines : List (List Char)) :
    Source → Surroundings → List (List Char) → Prop
  | listed {a : List (List Char)} {t : Surroundings} (h : Options.ofArguments a = .ok o)
    (htrace : t.traceback = trace) : Brings trace o lines .listed t (a ++ ['-', 'e'] :: lines)
  | piped {a : List (List Char)} {t : Surroundings} (h : Options.ofArguments a = .ok o)
    (htrace : t.traceback = trace)
    (hterminal : (t.inputIsTerminal && t.outputIsTerminal) = false)
    (hpiped : t.piped = linesOf (ended lines)) : Brings trace o lines .piped t a
  | typed {a : List (List Char)} {t : Surroundings} {prompt : Option (List Char)}
    (h : Options.ofArguments a = .ok { o with prompt }) (htrace : t.traceback = trace)
    (hprompt : (promptOf { o with prompt } t).isSome = true) (htyped : t.typed = lines)
    (hend : t.interrupted = false) : Brings trace o lines .typed t a

/-- The run has done with the session and written what the options show of the effect, and has not
been aborted. -/
structure Run.Shows (r : Run) (o : Options) (prompts : Bool) (e : Effect) : Prop where
  session : r.session = e.session
  out : r.out = heading o ++ e.out
  err : r.err = e.err
  ending : r.ending = .exit (status prompts e.session)

theorem shows_conclude {prompt : Option (List Char)} {e : Effect} {unread : List (List Char)}
    (hheading : heading o = heading o') (hfault : e.fault = none) :
    (conclude o prompt false e unread).Shows o' prompt.isSome e := by
  refine ⟨rfl, congrArg (· ++ e.out) hheading, rfl, ?_⟩
  show endingOf prompt.isSome false e = _
  rw [endingOf, hfault]
  rfl

/-- Behind `-e`, the lines are read and no others. -/
theorem start_listed (k : Calculator) (t : Surroundings) (s : Session) {a lines : List (List Char)}
    (haction : o.action ≠ .grammar) (h : Options.ofArguments a = .ok o)
    (hexpressions : o.expressions = none) (hprompt : o.prompt = none)
    (hdash : ∀ line ∈ lines, ¬ dividerText <+: line) :
    start k t (a ++ ['-', 'e'] :: lines) s =
      conclude o none false (perform k t.traceback o s lines).toEffect t.piped := by
  have hperform : perform k t.traceback { o with expressions := some lines } s lines =
      perform k t.traceback o s lines :=
    perform_with o (some lines) o.prompt s lines
  rw [start, Options.ofArguments_append h hexpressions hprompt hdash]
  show run k t { o with expressions := some lines } s = _
  rw [run_listed (o := { o with expressions := some lines }) haction rfl, hperform]
  rfl

/-- **What a run does is what its lines do**, however they come to it. -/
theorem start_of_brings (k : Calculator) (s : Session) {lines : List (List Char)} {source : Source}
    {t : Surroundings} {a : List (List Char)} (haction : o.action ≠ .grammar)
    (hexpressions : o.expressions = none) (hprompt : o.prompt = none)
    (hlayout : Layout.ofSettings? o.display = .ok layout)
    (hfeed : ∀ line ∈ lines, '\n' ∉ line) (hdash : ∀ line ∈ lines, ¬ dividerText <+: line)
    (h : Brings trace o lines source t a) :
    (start k t a s).Shows o (decide (source = .typed)) (perform k trace o s lines).toEffect := by
  have hstep : ∀ s line, (step k trace o s line).fault = none := fault_step hlayout
  have hfault := (perform_of_noAbort hstep s lines).1
  cases h with
  | listed h htrace =>
    rw [start_listed k t s haction h hexpressions hprompt hdash, htrace]
    exact shows_conclude rfl hfault
  | piped h htrace hterminal hpiped =>
    have hnone : promptOf o t = none := by
      rw [promptOf, hprompt, hterminal]
      rfl
    rw [start, h]
    show (run k t o s).Shows o false _
    rw [run_piped haction hexpressions hnone, htrace, hpiped, linesOf_ended hfeed,
      perform_map (step_newline k trace o) hstep]
    exact shows_conclude rfl hfault
  | @typed _ _ prompt h htrace hsome htyped hend =>
    obtain ⟨p, hp⟩ := Option.isSome_iff_exists.mp hsome
    have hperform : perform k trace { o with prompt } s lines = perform k trace o s lines :=
      perform_with o o.expressions prompt s lines
    rw [start, h]
    show (run k t { o with prompt } s).Shows o true _
    rw [run_typed (o := { o with prompt }) haction hexpressions hp hlayout, htrace, htyped, hend,
      hperform]
    exact shows_conclude rfl hfault

/-- **It makes no difference where lines come from.** Lines without a line feed, none of which begins
like the long form of a switch, do the same to a session and write the same, whether they stand
behind `-e`, come from the standard input or are typed at a prompt. The exit status is the same too,
unless the run prompts. -/
theorem start_agrees (k : Calculator) (s : Session) {lines : List (List Char)}
    {source source' : Source} {t t' : Surroundings} {a a' : List (List Char)}
    (haction : o.action ≠ .grammar) (hexpressions : o.expressions = none)
    (hprompt : o.prompt = none) (hlayout : Layout.ofSettings? o.display = .ok layout)
    (hfeed : ∀ line ∈ lines, '\n' ∉ line) (hdash : ∀ line ∈ lines, ¬ dividerText <+: line)
    (h : Brings trace o lines source t a) (h' : Brings trace o lines source' t' a') :
    (start k t a s).out = (start k t' a' s).out ∧ (start k t a s).err = (start k t' a' s).err ∧
      (start k t a s).session = (start k t' a' s).session ∧
      (source ≠ .typed → source' ≠ .typed → (start k t a s).ending = (start k t' a' s).ending) := by
  have hshows := start_of_brings k s haction hexpressions hprompt hlayout hfeed hdash h
  have hshows' := start_of_brings k s haction hexpressions hprompt hlayout hfeed hdash h'
  refine ⟨?_, ?_, ?_, fun hsource hsource' => ?_⟩
  · rw [hshows.out, hshows'.out]
  · rw [hshows.err, hshows'.err]
  · rw [hshows.session, hshows'.session]
  · rw [hshows.ending, hshows'.ending, decide_eq_false hsource, decide_eq_false hsource']

/-- Lines that look like switches. -/
def dashes : List (List Char) := ["-h", "1+ans", "-1"].map String.toList

/-- Arguments for three digits and tracebacks. -/
def threeDigits : List (List Char) := ["-k", "3", "-v"].map String.toList

/-- Both ends are terminals. A traceback has a heading, and names the expression above its last
line. -/
def terminals : Surroundings where
  inputIsTerminal := true
  outputIsTerminal := true
  piped := []
  typed := []
  interrupted := false
  traceback _ e := "Traceback (most recent call last):\n".toList ++ e.expression ++ ['\n']

/-- The standard input has the lines that look like switches. -/
def pipe : Surroundings :=
  { terminals with inputIsTerminal := false, piped := linesOf (ended dashes) }

/-- The lines `-h`, `1+ans` and `-1` behind `-e` and from a pipe. -/
theorem start_agrees_dashes :
    let r := start .standard terminals (threeDigits ++ ['-', 'e'] :: dashes) initial
    let r' := start .standard pipe threeDigits initial
    r.out = r'.out ∧ r.err = r'.err ∧ r.session = r'.session ∧ r.ending = r'.ending := by
  have hoptions : Options.ofArguments threeDigits =
      .ok ⟨true, ⟨.value 3, .unset⟩, none, none, .evaluate⟩ := by cbv
  have hlisted : Brings terminals.traceback _ dashes .listed terminals _ := .listed hoptions rfl
  have hpiped : Brings terminals.traceback _ dashes .piped pipe _ := .piped hoptions rfl rfl rfl
  obtain ⟨hout, herr, hsession, hending⟩ := start_agrees .standard initial
    (o := ⟨true, ⟨.value 3, .unset⟩, none, none, .evaluate⟩) (by decide) rfl rfl
    (show Layout.ofSettings? _ = .ok ⟨some 3, none⟩ from rfl) (by decide) (by decide) hlisted hpiped
  exact ⟨hout, herr, hsession, hending (by decide) (by decide)⟩

end Session

end InfixCalculator
