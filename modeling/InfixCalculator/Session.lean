import InfixCalculator.CommandLine.Options
import InfixCalculator.Expression.Evaluation
import InfixCalculator.Expression.Token

/-! # Sessions

A session evaluates lines one after the other and remembers the last answer, for which lines can use
the word `ans`, and whether a line has failed.

* `Session.substitute`: the line with the last answer put in.
* `Session.Traceback`: what tells of the calls that led to an error; `Session.errorLines`: an error as
  it is written for the user.
* `Session.evaluateLine`, `Session.dumpLine`: what one line does to the session, and what it
  writes; `Abort`: why no further line is read.
* `Session.perform`: the lines in order, up to one that aborts. -/

namespace InfixCalculator

open Text

/-- What is remembered from line to line. -/
structure Session where
  /-- The value of the last line that had one. -/
  answer : Decimal
  /-- A line has failed. -/
  failed : Bool

namespace Session

/-- The session before the first line. -/
def initial : Session := ⟨.ofNat 0, false⟩

/-! ## The last answer -/

/-- The text with a replacement for each `ans`, from left to right. -/
def replaceAnswer (replacement : List Char) : List Char → List Char
  | 'a' :: 'n' :: 's' :: rest => replacement ++ replaceAnswer replacement rest
  | c :: rest => c :: replaceAnswer replacement rest
  | [] => []

/-- The line with the last answer, in plain notation and parentheses, for each `ans`. -/
def substitute (s : Session) (line : List Char) : List Char :=
  replaceAnswer ('(' :: (s.answer.plain ++ [')'])) line

/-! ## Errors -/

/-- The part of a traceback above its last line: the calls that led to an error, and the errors that
caused it. These follow from what is done with the line, and from the error, which has the normal form
of the line with it. -/
abbrev Traceback := Action → EvaluationError → List Char

/-- The last line of a traceback: the kind and the message of the error. -/
def lastLine (e : EvaluationError) : List Char :=
  "bigcalc.util.".toList ++ e.kind.name.toList ++ [':', ' '] ++ e.message ++ ['\n']

/-- An error as it is written for the user: its message on a line, or the whole traceback if that is
wanted. -/
def errorLines (trace : Traceback) (o : Options) (e : EvaluationError) : List Char :=
  if o.verbose then trace o.action e ++ lastLine e else e.message ++ ['\n']

/-! ## Lines -/

/-- Why the lines are not read to their end. -/
inductive Abort where
  /-- A result could not be shown. -/
  | display (e : DisplayError)
  /-- An evaluation let a signal through. -/
  | signal (s : Signal)
deriving DecidableEq

/-- What a line, or several, does. -/
structure Effect where
  session : Session
  /-- What is written to the standard output. -/
  out : List Char
  /-- What is written to the standard error output. -/
  err : List Char
  /-- Why the lines end here, if that is so. -/
  fault : Option Abort

/-- What is shown instead of a result. -/
def failureText : List Char := "Error\n".toList

/-- What the value or the error of a line does. A value becomes the last answer before it is
shown. -/
def report (trace : Traceback) (o : Options) (s : Session) : Evaluated → Effect
  | .ok v =>
    let s' := { s with answer := v }
    match v.display o.display with
    | .ok text => ⟨s', text ++ ['\n'], [], none⟩
    | .error e => ⟨s', [], [], some (.display e)⟩
  | .error e => ⟨{ s with failed := true }, failureText, errorLines trace o e, none⟩

/-- A line is evaluated. -/
def evaluateLine (k : Calculator) (trace : Traceback) (o : Options) (s : Session)
    (line : List Char) : Effect :=
  match k.tryEvaluate (s.substitute line) with
  | .ok r => s.report trace o r
  | .error signal => ⟨s, [], [], some (.signal signal)⟩

/-- The heading above the tokens. -/
def dumpHeading : List Char := "[kind]\t<repr(token)>\t<position>\n".toList

/-- A token on a line: the kinds that its match has, its text and its start. -/
def tokenLine (t : Token) : List Char :=
  t.kinds.flatMap (fun kind => kind.name.toList ++ ['\t']) ++
    (quoted t.text ++ '\t' :: (numeral t.start ++ ['\n']))

/-- The tokens of a line are shown. -/
def dumpLine (trace : Traceback) (o : Options) (s : Session) (line : List Char) : Effect :=
  let normal := normalize line
  let t := tokenize normal
  let out := t.tokens.flatMap tokenLine
  match t.error? normal with
  | none => ⟨s, out, [], none⟩
  | some e => ⟨{ s with failed := true }, out, errorLines trace o e, none⟩

/-- What is done with a line; the grammar is shown without reading any. -/
def step (k : Calculator) (trace : Traceback) (o : Options) (s : Session) (line : List Char) :
    Effect :=
  match o.action with
  | .evaluate => s.evaluateLine k trace o line
  | .dump => s.dumpLine trace o line
  | .grammar => ⟨s, [], [], none⟩

/-! ## Several lines -/

/-- What several lines do, and the lines that were left when one aborted. -/
structure Performance extends Effect where
  unread : List (List Char)

/-- The lines are taken in order. -/
def perform (k : Calculator) (trace : Traceback) (o : Options) (s : Session) :
    List (List Char) → Performance
  | [] => ⟨⟨s, [], [], none⟩, []⟩
  | line :: rest =>
    let first := s.step k trace o line
    match first.fault with
    | some _ => ⟨first, rest⟩
    | none =>
      let others := perform k trace o first.session rest
      ⟨⟨others.session, first.out ++ others.out, first.err ++ others.err, others.fault⟩,
        others.unread⟩

end Session

end InfixCalculator
