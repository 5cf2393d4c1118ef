import InfixCalculator.Text.Quoted

/-! # Switches

* `Switch`: the switches of the command line, each with a short and a long name.
* `Intake`: how many of the following arguments a switch takes for itself.
* `Switch.excluded?`: the switch that may not be given together with another one. -/

namespace InfixCalculator

/-- A switch of the command line. -/
inductive Switch where
  | help
  | verbose
  | precision
  | width
  | expression
  | prompt
  | grammar
  | dump
deriving DecidableEq

/-- What a switch takes of the arguments after it. -/
inductive Intake where
  | nothing
  | one
  | atMostOne
  /-- All of them, up to a divider. -/
  | everything
deriving DecidableEq

namespace Switch

/-- The switches in the order in which they are listed. -/
def all : List Switch := [help, verbose, precision, width, expression, prompt, grammar, dump]

/-- The letter after a single dash. -/
def letter : Switch → Char
  | help => 'h'
  | verbose => 'v'
  | precision => 'k'
  | width => 'w'
  | expression => 'e'
  | prompt => 'p'
  | grammar => 'G'
  | dump => 'D'

/-- The name after two dashes. -/
def word : Switch → String
  | help => "help"
  | verbose => "verbose"
  | precision => "precision"
  | width => "width"
  | expression => "expression"
  | prompt => "prompt"
  | grammar => "raw-grammar"
  | dump => "dump"

/-- The short form, with its dash. -/
def short (s : Switch) : List Char := ['-', s.letter]

/-- The long form, with its dashes. -/
def long (s : Switch) : List Char := '-' :: '-' :: s.word.toList

/-- The switch as messages name it. -/
def title (s : Switch) : List Char := s.short ++ '/' :: s.long

/-- What the switch takes of the arguments after it. -/
def intake : Switch → Intake
  | precision | width => .one
  | expression => .everything
  | prompt => .atMostOne
  | help | verbose | grammar | dump => .nothing

/-- The switch that excludes this one. -/
def excluded? : Switch → Option Switch
  | expression => some prompt
  | prompt => some expression
  | grammar => some dump
  | dump => some grammar
  | help | verbose | precision | width => none

/-- The switch of a letter. -/
def ofLetter? (c : Char) : Option Switch := all.find? fun s => s.letter = c

/-- The switch of a short or long form. -/
def ofForm? (form : List Char) : Option Switch := all.find? fun s => s.short = form || s.long = form

/-- The switches whose long forms start with the given characters. -/
def completions (start : List Char) : List Switch := all.filter fun s => start.isPrefixOf s.long

end Switch

end InfixCalculator
