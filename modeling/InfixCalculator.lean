import InfixCalculator.CommandLine.Argument
import InfixCalculator.CommandLine.Options
import InfixCalculator.CommandLine.Switch
import InfixCalculator.CommandLine.Usage
import InfixCalculator.Decimal.Arithmetic
import InfixCalculator.Decimal.Basic
import InfixCalculator.Decimal.Layout
import InfixCalculator.Decimal.Notation
import InfixCalculator.Double.Basic
import InfixCalculator.Double.Functions
import InfixCalculator.Double.Shortest
import InfixCalculator.Expression.Alphabet
import InfixCalculator.Expression.Cursor
import InfixCalculator.Expression.Evaluation
import InfixCalculator.Expression.Grammar
import InfixCalculator.Expression.Literal
import InfixCalculator.Expression.Outcome
import InfixCalculator.Expression.Problem
import InfixCalculator.Expression.Token
import InfixCalculator.Main
import InfixCalculator.Power
import InfixCalculator.Proofs.CommandLine.Appended
import InfixCalculator.Proofs.Decimal.Canonical
import InfixCalculator.Proofs.Decimal.CorrectRounding
import InfixCalculator.Proofs.Decimal.Faithful
import InfixCalculator.Proofs.Decimal.Length
import InfixCalculator.Proofs.Decimal.Narrowed
import InfixCalculator.Proofs.Decimal.Plain
import InfixCalculator.Proofs.Decimal.Quotient
import InfixCalculator.Proofs.Decimal.Reading
import InfixCalculator.Proofs.Decimal.Rounded
import InfixCalculator.Proofs.Decimal.Shown
import InfixCalculator.Proofs.Decimal.Significant
import InfixCalculator.Proofs.Decimal.Spelling
import InfixCalculator.Proofs.Decimal.Value
import InfixCalculator.Proofs.Decimal.Wanted
import InfixCalculator.Proofs.Double.Alike
import InfixCalculator.Proofs.Expression.Boundary
import InfixCalculator.Proofs.Expression.Call
import InfixCalculator.Proofs.Expression.Culprit
import InfixCalculator.Proofs.Expression.Cursor
import InfixCalculator.Proofs.Expression.Discipline
import InfixCalculator.Proofs.Expression.Entered
import InfixCalculator.Proofs.Expression.Equality
import InfixCalculator.Proofs.Expression.Exact
import InfixCalculator.Proofs.Expression.Filled
import InfixCalculator.Proofs.Expression.Induction
import InfixCalculator.Proofs.Expression.Lexemes
import InfixCalculator.Proofs.Expression.Limit
import InfixCalculator.Proofs.Expression.Lookahead
import InfixCalculator.Proofs.Expression.Lossless
import InfixCalculator.Proofs.Expression.Meaning
import InfixCalculator.Proofs.Expression.Message
import InfixCalculator.Proofs.Expression.Nesting
import InfixCalculator.Proofs.Expression.Normal
import InfixCalculator.Proofs.Expression.Online
import InfixCalculator.Proofs.Expression.Parsing
import InfixCalculator.Proofs.Expression.Place
import InfixCalculator.Proofs.Expression.Printed
import InfixCalculator.Proofs.Expression.Respelled
import InfixCalculator.Proofs.Expression.Retyped
import InfixCalculator.Proofs.Expression.Scanned
import InfixCalculator.Proofs.Expression.Signals
import InfixCalculator.Proofs.Expression.Simulation
import InfixCalculator.Proofs.Expression.Stop
import InfixCalculator.Proofs.Expression.Swapped
import InfixCalculator.Proofs.Expression.Termination
import InfixCalculator.Proofs.Expression.TokenDescent
import InfixCalculator.Proofs.Expression.Tokenwise
import InfixCalculator.Proofs.Expression.Tree
import InfixCalculator.Proofs.Expression.Wrapped
import InfixCalculator.Proofs.Rounding.HalfEven
import InfixCalculator.Proofs.Rounding.Magnitude
import InfixCalculator.Proofs.Session.Answer
import InfixCalculator.Proofs.Session.Display
import InfixCalculator.Proofs.Session.Dump
import InfixCalculator.Proofs.Session.Fold
import InfixCalculator.Proofs.Session.Safety
import InfixCalculator.Proofs.Session.Sources
import InfixCalculator.Proofs.Session.Status
import InfixCalculator.Proofs.Text.Digits
import InfixCalculator.Proofs.Text.Numeral
import InfixCalculator.Proofs.Text.Unquoted
import InfixCalculator.Proofs.Text.Visible
import InfixCalculator.Rounding
import InfixCalculator.Session
import InfixCalculator.Session.Run
import InfixCalculator.Text.Blank
import InfixCalculator.Text.Digit
import InfixCalculator.Text.Integer
import InfixCalculator.Text.Numeral
import InfixCalculator.Text.Printable
import InfixCalculator.Text.Quoted
