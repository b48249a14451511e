import DiceFormula.Expr.Evaluation
import DiceFormula.Formula.Reading

/-!
# Rolling formulas

The whole way from a text to a total: the formula is read, its dice are
thrown, and what they show is totalled and listed.
-/

namespace DiceFormula.Formula

variable {σ : Type}

/-- What a formula came to. -/
structure Outcome where
  /-- The total. -/
  total : Value
  /-- The breakdown, cut up into operands and operators. -/
  groups : List String
  /-- The normal form of the formula. -/
  formula : String
  deriving DecidableEq

namespace Outcome

/-- The breakdown in one line. -/
def rolls (outcome : Outcome) : String := " ".intercalate outcome.groups

/-- The total and, in parentheses, the breakdown. -/
def text (outcome : Outcome) : String :=
  Value.text outcome.total ++ " (" ++ outcome.rolls ++ ")"

end Outcome

/-- Rolls a formula. -/
def roll (text : String) : ExceptT Error (Rolling σ) Outcome := do
  let read ← ExceptT.lift (Rolling.ofLogged (readLogged text))
  let formula ← ExceptT.adapt Error.refused (ExceptT.mk (pure read))
  ExceptT.lift (Rolling.note (.rolling formula.text formula.expr))
  let evaluated ← ExceptT.adapt Error.evaluation formula.expr.evaluate
  let total ← ExceptT.adapt Error.calculation
    (ExceptT.mk (pure (Evaluated.calculate evaluated)))
  let outcome : Outcome :=
    ⟨total, Evaluated.groups none evaluated, formula.text⟩
  ExceptT.lift (Rolling.note (.rolled formula.text total outcome.rolls))
  return outcome

end DiceFormula.Formula
