import DiceFormula.CommandLine
import DiceFormula.Roller.Seeded

/-!
# The program

Rolls the formula given by the arguments, or asks for one. The dice are seeded
anew every time.
-/

namespace DiceFormula.CommandLine

/-- A seed that nobody can foresee. -/
def freshSeed : IO UInt64 := do
  let bytes ← IO.getRandomBytes 8
  return bytes.toList.foldl (fun seed byte => seed * 256 + byte.toUInt64) 0

/-- Asks for a line and takes it from the input. -/
def askLine : IO String := do
  let stdout ← IO.getStdout
  stdout.putStr prompt
  stdout.flush
  return firstLine (← (← IO.getStdin).getLine)

/-- Rolls the formula of a text and prints how that went. -/
def runAndPrint (text : String) : IO UInt32 := do
  match (run text Roller.seeded (Table.new (← freshSeed))).1 with
  | .ok transcript =>
    IO.print transcript.output
    IO.eprint transcript.complaint
    return transcript.exitCode
  | .error halt =>
    IO.eprintln halt.message
    return 1

end DiceFormula.CommandLine

open DiceFormula in
def main (arguments : List String) : IO UInt32 := do
  if arguments.isEmpty then
    match ← CommandLine.askLine.toBaseIO with
    | .ok line => CommandLine.runAndPrint line
    | .error err =>
      IO.eprintln ("Unable to read formula: " ++ toString err)
      return 1
  else
    CommandLine.runAndPrint (CommandLine.request arguments "")
