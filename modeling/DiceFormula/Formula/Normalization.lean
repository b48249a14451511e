import DiceFormula.Log
import DiceFormula.Text.Blank
import DiceFormula.Text.Lowercase

/-!
# The normal form of a formula

What people type is brought into the notation before it is read: quotes and
the blanks around the formula are taken away, capital letters become small
ones, a bare number is a die with that many sides, and a die without a count
in front of its number is one die.
-/

namespace DiceFormula.Formula

open Text

/-- Whether a character is a single or a double quote. -/
def isQuote (c : Char) : Bool := c == '\x27' || c == '\x22'

theorem isQuote_iff {c : Char} : isQuote c = true ↔ c = '\x27' ∨ c = '\x22' := by
  rw [isQuote, Bool.or_eq_true, beq_iff_eq, beq_iff_eq]

/-- What is left of a text without its quotes and then without the blanks
around it. -/
def bare (text : String) : List Char :=
  trim (text.toList.filter fun c => !isQuote c)

/-- Completes a bare number and a die without a count. -/
def complete (s : List Char) : List Char :=
  if s.all Char.isDigit then '1' :: 'd' :: s
  else
    match s with
    | 'd' :: c :: rest =>
      if c.isDigit then '1' :: 'd' :: c :: rest else 'd' :: c :: rest
    | _ => s

/-- The normal form of a formula. -/
def normalize (text : String) : Except InputError String :=
  let s := bare text
  if s.isEmpty then .error .empty
  else if maxLength < s.length then .error (.tooLong s.length)
  else .ok (String.ofList (complete (lowercase s)))

/-- The warning about a formula that is too long. -/
def warnings (text : String) : List Log.Record :=
  match normalize text with
  | .error (.tooLong length) => [.tooLong length (String.ofList (bare text))]
  | _ => []

/-- The normal form of a formula, with a warning in the log if it is too
long. -/
def normalizeLogged (text : String) : Logged (Except InputError String) :=
  ⟨normalize text, warnings text⟩

end DiceFormula.Formula
