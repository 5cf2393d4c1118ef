import InfixCalculator.Session.Run

/-! # The command line

The program `bigcalc`: expressions come from its arguments, from a prompt or from the standard
input, and their values go to the standard output. All decisions are made by `Session`; here its
texts are read and written. -/

namespace InfixCalculator

/-- Writes what a line or a run has to say. -/
def put (out err : List Char) : IO Unit := do
  let stdout ← IO.getStdout
  let stderr ← IO.getStderr
  stdout.putStr (String.ofList out)
  stdout.flush
  stderr.putStr (String.ofList err)
  stderr.flush

/-- The lines of the standard input, each with the line feed that ends it. -/
partial def readLines (input : IO.FS.Stream) : IO (List (List Char)) := do
  let line ← input.getLine
  if line.isEmpty then return [] else return line.toList :: (← readLines input)

/-- Prompts for lines until the input ends, and performs each of them at once. -/
partial def converse (k : Calculator) (trace : Session.Traceback) (o : Options)
    (prompt : List Char) (input : IO.FS.Stream) (s : Session) : IO UInt32 := do
  put prompt []
  let line ← input.getLine
  if line.isEmpty then return 0
  let e := s.step k trace o line.toList
  put e.out e.err
  match e.fault with
  | some _ => return 1
  | none => converse k trace o prompt input e.session

/-- The exit status of a run; one that was aborted counts as failed. -/
def exitCode : Session.Ending → UInt32
  | .exit status => status.toUInt32
  | .aborted _ => 1

end InfixCalculator

open InfixCalculator in
/-- Runs the calculator once. -/
def main (arguments : List String) : IO UInt32 := do
  let input ← IO.getStdin
  let texts := arguments.map String.toList
  let terminal : Session.Surroundings :=
    { inputIsTerminal := ← input.isTty, outputIsTerminal := ← (← IO.getStdout).isTty
      piped := [], typed := [], interrupted := false }
  let k := Calculator.standard
  match Options.ofArguments texts with
  | .ok o =>
    if o.action ≠ .grammar && o.expressions.isNone then
      match Session.promptOf o terminal with
      | some prompt =>
        put (Session.heading o) []
        match Session.reminder o .initial with
        | .ok _ => return ← converse k terminal.traceback o prompt input .initial
        | .error _ => return 1
      | none => pure ()
    let piped ← if o.action = .grammar || o.expressions.isSome then pure [] else readLines input
    let r := Session.run k { terminal with piped } o .initial
    put r.out r.err
    return exitCode r.ending
  | .error _ =>
    let r := Session.start k terminal texts .initial
    put r.out r.err
    return exitCode r.ending
