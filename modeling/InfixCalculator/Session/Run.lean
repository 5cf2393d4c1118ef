import InfixCalculator.Session

/-! # Runs of the command line

A run takes its lines from its arguments, from a prompt or from the standard input. Several runs can
follow each other in one session.

* `Session.run`: a run with given options.
* `Session.start`: a run with given arguments.
* `Session.status`: the exit status at the end of the lines. -/

namespace InfixCalculator

namespace Session

/-! ## What a run needs and does -/

/-- What surrounds a run. -/
structure Surroundings where
  inputIsTerminal : Bool
  outputIsTerminal : Bool
  /-- The lines of the standard input, each with the line feed that ends it. -/
  piped : List (List Char)
  /-- The lines that are typed if the run prompts for them. -/
  typed : List (List Char)
  /-- The typing ends by an interrupt, and not by the end of input. -/
  interrupted : Bool
  /-- How errors tell of the calls that led to them. A program that keeps none says nothing. -/
  traceback : Traceback := fun _ _ => []

/-- How a run ends. -/
inductive Ending where
  | exit (status : Nat)
  /-- The lines were not read to their end. -/
  | aborted (reason : Abort)

/-- What a run does. -/
structure Run where
  session : Session
  out : List Char
  err : List Char
  ending : Ending
  /-- The prompt, if the run prompted. -/
  prompt : Option (List Char)
  /-- What stands beside the prompt after the last line, if the run prompted. -/
  reminder : Option (Except DisplayError (List Char))
  /-- The lines of the standard input that are left. -/
  unread : List (List Char)

/-- The lines of a text, each with the line feed that ends it. -/
def linesOf (text : List Char) : List (List Char) := text.splitBy fun c _ => c ≠ '\n'

/-! ## Before and after the lines -/

/-- The prompt of a run that reads lines, if it prompts for them: one was asked for, or both ends
are terminals. An empty prompt counts as none. -/
def promptOf (o : Options) (t : Surroundings) : Option (List Char) :=
  let wanted := o.prompt.filter fun p => p ≠ []
  if wanted.isSome || t.inputIsTerminal && t.outputIsTerminal then
    some (wanted.getD standardPrompt)
  else none

/-- The text beside the prompt: the last answer as it is shown. -/
def reminder (o : Options) (s : Session) : Except DisplayError (List Char) :=
  (s.answer.display o.display).map fun text => "ans = ".toList ++ text

/-- The grammar as it is shown. -/
def grammarText : String :=
  "expression = term \x7b (\"+\" | \"-\") term \x7d ;\n" ++
  "term       = exponent \x7b (\"*\" | \"/\") exponent \x7d ;\n" ++
  "exponent   = primary [ \"^\" exponent ] ;\n" ++
  "primary    = [ \"+\" | \"-\" ] ( \"√\" primary | \"(\" expression \")\" | number ) ;\n" ++
  "number     = \x7b digit | \".\" \x7d ;\n"

/-- What is written before the first line. -/
def heading (o : Options) : List Char :=
  match o.action with
  | .evaluate => []
  | .dump => dumpHeading
  | .grammar => grammarText.toList

/-- The exit status at the end of the lines: one if a line has failed, in this run or before it,
unless the run prompts. -/
def status (prompts : Bool) (s : Session) : Nat := if s.failed && !prompts then 1 else 0

/-- The ending of lines that were performed. -/
def endingOf (prompts interrupted : Bool) (e : Effect) : Ending :=
  match e.fault with
  | some fault => .aborted fault
  | none => if interrupted then .exit 1 else .exit (status prompts e.session)

/-- The run that came to an effect, with the prompt that it showed, if any. -/
def conclude (o : Options) (prompt : Option (List Char)) (interrupted : Bool) (e : Effect)
    (unread : List (List Char)) : Run where
  session := e.session
  out := heading o ++ e.out
  err := e.err
  ending := endingOf prompt.isSome interrupted e
  prompt := prompt
  reminder := prompt.map fun _ => reminder o e.session
  unread := unread

/-! ## Runs -/

/-- The typed lines in order. The reminder stands beside each prompt, so no line is read if it
cannot be shown. -/
def performTyped (k : Calculator) (trace : Traceback) (o : Options) (s : Session)
    (lines : List (List Char)) : Effect :=
  match reminder o s with
  | .error e => ⟨s, [], [], some (.display e)⟩
  | .ok _ => (perform k trace o s lines).toEffect

/-- A run with given options. The lines come from the arguments, else from the prompt if there is
one, else from the standard input. -/
def run (k : Calculator) (t : Surroundings) (o : Options) (s : Session) : Run :=
  if o.action = .grammar then conclude o none false ⟨s, [], [], none⟩ t.piped
  else match o.expressions, promptOf o t with
    | some lines, _ => conclude o none false (perform k t.traceback o s lines).toEffect t.piped
    | none, some prompt =>
      conclude o (some prompt) t.interrupted (performTyped k t.traceback o s t.typed) t.piped
    | none, none =>
      let p := perform k t.traceback o s t.piped
      conclude o none false p.toEffect p.unread

/-- A run with given arguments. -/
def start (k : Calculator) (t : Surroundings) (arguments : List (List Char)) (s : Session) : Run :=
  match Options.ofArguments arguments with
  | .ok o => run k t o s
  | .error .help => ⟨s, helpText.toList, [], .exit 0, none, none, t.piped⟩
  | .error (.wrong e) => ⟨s, [], e.report, .exit 2, none, none, t.piped⟩

end Session

end InfixCalculator
