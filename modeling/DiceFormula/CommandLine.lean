import DiceFormula.Expr.Inspection
import DiceFormula.Formula.Roll

/-!
# The command line

What the program prints for one formula: how it was read, what its dice show,
and what they come to. Printing goes on up to the first thing that fails, and
what failed is then told on the error stream.
-/

namespace DiceFormula.CommandLine

variable {σ : Type}

/-- What is printed in order to ask for a formula. -/
def prompt : String := "Enter dice formula: "

/-- The first line of the input, without the line break that ends it. -/
def firstLine (input : String) : String :=
  let line := input.toList.takeWhile (· != '\n')
  if input.toList.contains '\n' && line.getLast? == some '\r' then
    String.ofList line.dropLast
  else String.ofList line

/-- The formula that was asked for: the arguments if there are any, and
otherwise the line that was typed. -/
def request (arguments : List String) (line : String) : String :=
  if arguments.isEmpty then line else " ".intercalate arguments

/-- What the program prints for a formula, and why it stops short if it
does. -/
structure Transcript where
  output : String
  failure : Option Formula.Error

namespace Transcript

/-- The exit code: zero unless something failed. -/
def exitCode (transcript : Transcript) : UInt32 :=
  if transcript.failure.isSome then 1 else 0

/-- What is told on the error stream. -/
def complaint (transcript : Transcript) : String :=
  match transcript.failure with
  | some err => err.reply ++ ": " ++ err.message ++ "\n"
  | none => ""

end Transcript

/-- The lines, each with its line break. -/
def unlines (lines : List String) : String :=
  String.join (lines.map (· ++ "\n"))

/-- The lines that show how a formula was read. -/
def readingLines (e : Expr Dice) : List String :=
  ["Parsed: " ++ Inspection.expr Inspection.dice e,
    "Canonical: " ++ e.canonical,
    "Deterministic: " ++ Inspection.bool e.isDeterministic]

/-- The lines that show what was thrown. -/
def evaluationLines (e : Evaluated) : List String :=
  ["", "Evaluated: " ++ Inspection.expr Inspection.rolled e,
    "Rolls: " ++ Evaluated.describe none e]

/-- The formula of a text, in normal form and read. -/
def read (text : String) : Except Formula.InputError (Expr Dice) := do
  let formula ← Formula.normalize text
  match Expr.readLowercase? formula with
  | some e => return e
  | none => throw .unreadable

/-- Rolls a formula in front of the user. -/
def run (text : String) : Rolling σ Transcript := do
  let echo := ["Input: " ++ text]
  match read text with
  | .error err => return ⟨unlines echo, some (.refused err)⟩
  | .ok e =>
    let shown := echo ++ readingLines e
    match ← e.evaluate.run with
    | .error err => return ⟨unlines shown, some (.evaluation err)⟩
    | .ok evaluated =>
      let shown := shown ++ evaluationLines evaluated
      match Evaluated.calculate evaluated with
      | .error err => return ⟨unlines shown, some (.calculation err)⟩
      | .ok total =>
        return ⟨unlines (shown ++ ["Total: " ++ Value.text total]), none⟩

end DiceFormula.CommandLine
