import InfixCalculator.CommandLine.Switch

/-! # Help and usage errors

* `helpText`, `usageText`: what the user reads about the command line.
* `UsageError`: what can be wrong with the arguments, and `UsageError.message`, its wording. -/

namespace InfixCalculator

open Text

/-- The line, which may be broken in two, that shows all switches. -/
def usageText : String :=
  "usage: bigcalc [-h] [-v] [-k PRECISION] [-w WIDTH] [-e ... | -p [PROMPT]]\n" ++
  "               [-G | -D]\n"

/-- All about the switches. -/
def helpText : String :=
  usageText ++
  "\n" ++
  "Infix calculator with exact decimal arithmetic\n" ++
  "\n" ++
  "options:\n" ++
  "  -h, --help            show this help message and exit\n" ++
  "  -v, --verbose         show tracebacks on errors\n" ++
  "  -k PRECISION, --precision PRECISION\n" ++
  "                        significant digits shown\n" ++
  "  -w WIDTH, --width WIDTH\n" ++
  "                        shorten results wider than this many characters\n" ++
  "  -e ..., --expression ...\n" ++
  "  -p [PROMPT], --prompt [PROMPT]\n" ++
  "  -G, --raw-grammar\n" ++
  "  -D, --dump\n"

/-- What is wrong with the arguments. -/
inductive UsageError where
  /-- A shortened long form has several completions. -/
  | ambiguous (argument : List Char) (completions : List Switch)
  /-- The value of a switch is missing. -/
  | missingValue (s : Switch)
  /-- A switch that takes no value was given one. -/
  | needlessValue (s : Switch) (value : List Char)
  /-- The value of a switch is not an integer. -/
  | notAnInteger (s : Switch) (value : List Char)
  /-- A switch stands beside one that excludes it. -/
  | excluded (s other : Switch)
  /-- Arguments that belong to no switch. -/
  | unrecognized (arguments : List (List Char))

/-- The words about a switch. -/
def Switch.complaint (s : Switch) (words : List Char) : List Char :=
  "argument ".toList ++ s.title ++ ": ".toList ++ words

/-- What the user reads. -/
def UsageError.message : UsageError → List Char
  | ambiguous argument completions =>
    "ambiguous option: ".toList ++ argument ++ " could match ".toList ++
      ", ".toList.intercalate (completions.map Switch.long)
  | missingValue s => s.complaint "expected one argument".toList
  | needlessValue s value => s.complaint ("ignored explicit argument ".toList ++ quoted value)
  | notAnInteger s value => s.complaint ("invalid int value: ".toList ++ quoted value)
  | excluded s other => s.complaint ("not allowed with argument ".toList ++ other.title)
  | unrecognized arguments => "unrecognized arguments: ".toList ++ [' '].intercalate arguments

/-- The usage and the message, as they are written for the user. -/
def UsageError.report (e : UsageError) : List Char :=
  usageText.toList ++ "bigcalc: error: ".toList ++ e.message ++ ['\n']

end InfixCalculator
