import InfixCalculator.CommandLine.Argument
import InfixCalculator.Decimal.Layout
import InfixCalculator.Text.Integer

/-! # Options

The sorted arguments of the command line are taken from left to right, each switch with its values.
For texts that are attached to a switch, the rules are those of the argument parser of version 3.11,
before its release 3.11.9: a divider is no value, and letters of further switches may follow an equals
sign.

* `Options`: what the arguments ask for.
* `TakenGroup.of`: the switches that one argument gives, and what it takes of the arguments ahead.
* `Options.ofArguments`: the options, or the reason for which there are none: help was asked for, or
  the arguments are wrong. -/

namespace InfixCalculator

open Text

/-- What is done with the expressions. -/
inductive Action where
  | evaluate
  /-- Their tokens are shown. -/
  | dump
  /-- The grammar is shown, and no expression is read. -/
  | grammar
deriving DecidableEq

/-- What the arguments ask for. -/
structure Options where
  /-- Errors are shown with their traceback. -/
  verbose : Bool
  display : DisplaySettings
  /-- The expressions, if they are among the arguments. -/
  expressions : Option (List (List Char))
  /-- The prompt, if one is asked for. -/
  prompt : Option (List Char)
  action : Action

/-- The options without any arguments. -/
def Options.initial : Options := ⟨false, ⟨.unset, .unset⟩, none, none, .evaluate⟩

/-- The prompt that is shown if none is given. -/
def standardPrompt : List Char := ['>', ' ']

/-! ## Taking -/

/-- A switch with its values. -/
structure Taken where
  switch : Switch
  values : List (List Char)

/-- The switches that one argument gives. -/
structure TakenGroup where
  taken : List Taken
  /-- How many of the following arguments are values. -/
  used : Nat

namespace TakenGroup

/-- The switch with the values that it takes from the arguments ahead. -/
def ofAhead (s : Switch) (ahead : List (List Char × Argument)) : Except UsageError TakenGroup :=
  match s.intake, ahead with
  | .nothing, _ => .ok ⟨[⟨s, []⟩], 0⟩
  | .one, (text, .word) :: _ => .ok ⟨[⟨s, [text]⟩], 1⟩
  | .one, _ => .error (.missingValue s)
  | .atMostOne, (text, .word) :: _ => .ok ⟨[⟨s, [text]⟩], 1⟩
  | .atMostOne, _ => .ok ⟨[⟨s, []⟩], 0⟩
  | .everything, _ =>
    let values := ahead.takeWhile fun a => !a.2.isDivider
    .ok ⟨[⟨s, values.map Prod.fst⟩], values.length⟩

/-- The values that an attached text gives to a switch. An attached divider gives none, except to a
switch that takes everything. -/
def attachedValues (s : Switch) (text : List Char) : List (List Char) :=
  if text = dividerText ∧ s.intake ≠ .everything then [] else [text]

/-- The switch with the text that is attached to it: its value, or else the letters of further
switches. -/
def ofAttached (byLetter : Bool) (ahead : List (List Char × Argument)) (s : Switch) :
    List Char → Except UsageError TakenGroup
  | [] => if s.intake = .nothing then .error (.needlessValue s []) else .ok ⟨[⟨s, [[]]⟩], 0⟩
  | c :: more =>
    if s.intake ≠ .nothing then .ok ⟨[⟨s, attachedValues s (c :: more)⟩], 0⟩
    else match byLetter, Switch.ofLetter? c with
      | true, some next => do
        let group ← if more = [] then ofAhead next ahead else ofAttached byLetter ahead next more
        .ok { group with taken := ⟨s, []⟩ :: group.taken }
      | _, _ => .error (.needlessValue s (c :: more))

/-- The switches that an argument gives. -/
def of (s : Switch) (byLetter : Bool) (attached : Option (List Char))
    (ahead : List (List Char × Argument)) : Except UsageError TakenGroup :=
  match attached with
  | none => ofAhead s ahead
  | some text => ofAttached byLetter ahead s text

end TakenGroup

/-- Why there are no options. -/
inductive Refusal where
  /-- Help was asked for. -/
  | help
  /-- The arguments are wrong. -/
  | wrong (e : UsageError)

/-- The setting that the values of a switch make: an integer, or none. -/
def Taken.setting (t : Taken) : Except Refusal Setting :=
  match t.values with
  | [] => .ok .void
  | text :: _ => match integer? text with
    | some n => .ok (.value n)
    | none => .error (.wrong (.notAnInteger t.switch text))

/-- Options in the making. -/
structure Draft where
  options : Options
  /-- The switches so far. -/
  seen : List Switch
  /-- The arguments so far that belong to no switch. -/
  extras : List (List Char)

namespace Draft

/-- The draft with a switch set to its values. -/
def set (d : Draft) (t : Taken) : Except Refusal Options :=
  let o := d.options
  match t.switch with
  | .help => .error .help
  | .verbose => .ok { o with verbose := true }
  | .precision => t.setting.map fun n => { o with display := { o.display with precision := n } }
  | .width => t.setting.map fun n => { o with display := { o.display with width := n } }
  | .expression => .ok { o with expressions := some t.values }
  | .prompt => .ok { o with prompt := some (t.values.headD standardPrompt) }
  | .grammar => .ok { o with action := .grammar }
  | .dump => .ok { o with action := .dump }

/-- The draft with one more switch, unless a switch so far excludes it. -/
def take (d : Draft) (t : Taken) : Except Refusal Draft :=
  match t.switch.excluded? with
  | some other =>
    if d.seen.contains other then .error (.wrong (.excluded t.switch other))
    else (d.set t).map fun o => { d with options := o, seen := t.switch :: d.seen }
  | none => (d.set t).map fun o => { d with options := o, seen := t.switch :: d.seen }

/-- The draft after all arguments. -/
def takeAll (d : Draft) : List (List Char × Argument) → Except Refusal Draft
  | [] => .ok d
  | (_, .switch s byLetter attached) :: ahead =>
    match TakenGroup.of s byLetter attached ahead with
    | .error e => .error (.wrong e)
    | .ok group => do
      let d ← group.taken.foldlM take d
      takeAll d (ahead.drop group.used)
  | (text, _) :: ahead => takeAll { d with extras := d.extras ++ [text] } ahead
termination_by arguments => arguments.length
decreasing_by all_goals simp; try omega

end Draft

/-- The options that the arguments give. -/
def Options.ofArguments (arguments : List (List Char)) : Except Refusal Options :=
  match Argument.sortAll arguments with
  | .error e => .error (.wrong e)
  | .ok sorted => do
    let d ← Draft.takeAll ⟨.initial, [], []⟩ sorted
    if d.extras = [] then .ok d.options else .error (.wrong (.unrecognized d.extras))

end InfixCalculator
