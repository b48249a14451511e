import DiceFormula.Expr.Calculation

/-!
# Errors of a formula

A formula is refused before anything is thrown, or it is accepted and fails on
the way to its total. The two are told apart by type, since a chat shows a
different reply for each.
-/

namespace DiceFormula

/-- A set of dice could not be thrown. -/
structure Expr.EvalError where
  /-- The set. -/
  dice : Dice
  /-- What went wrong with it. -/
  cause : Dice.Error

/-- The text an error is reported with. -/
def Expr.EvalError.message (err : Expr.EvalError) : String :=
  "dice error while evaluating \x22" ++ err.dice.text ++ "\x22: " ++
    err.cause.message

namespace Formula

/-- The greatest number of characters a formula may have. -/
def maxLength : Nat := 100

/-- Why a formula is refused. -/
inductive InputError where
  /-- There is nothing but blanks and quotes. -/
  | empty
  /-- There are more characters than a formula may have. -/
  | tooLong (length : Nat)
  /-- The text is not in the notation. -/
  | unreadable
  deriving DecidableEq

/-- The text an error is reported with. -/
def InputError.message : InputError → String
  | empty => "empty dice formula"
  | tooLong length =>
    "dice formula is " ++ length.repr ++ " characters long, the maximum is " ++
      maxLength.repr
  | unreadable => "invalid dice formula: the text is not in dice notation"

/-- Why a formula has no total. -/
inductive Error where
  /-- The formula is refused. -/
  | refused (cause : InputError)
  /-- Its dice could not be thrown. -/
  | evaluation (cause : Expr.EvalError)
  /-- What they show could not be totalled. -/
  | calculation (cause : Expr.CalcError)

/-- The reply to a formula that is refused. -/
def invalidReply : String := "[Invalid dice formula]"

/-- The reply to a formula that fails while it is rolled. -/
def failedReply : String := "[Roll failed]"

namespace Error

/-- Whether the formula is to blame, and not the roll. -/
def isInvalidFormula : Error → Bool
  | refused _ => true
  | evaluation _ => false
  | calculation _ => false

/-- The reply a chat shows in place of a total. -/
def reply (err : Error) : String :=
  if err.isInvalidFormula then invalidReply else failedReply

/-- The text an error is reported with. -/
def message : Error → String
  | refused cause => cause.message
  | evaluation cause => cause.message
  | calculation cause => cause.message

end Error

end Formula

end DiceFormula
