import DiceFormula.Dice.Roll

/-!
# Evaluating expressions

To evaluate an expression is to throw its sets of dice from left to right. The
first set that fails is the error, and nothing is thrown after it.
-/

namespace DiceFormula.Expr

variable {σ : Type}

/-- Throws the dice of an expression. -/
def evaluate (e : Expr Dice) : ExceptT EvalError (Rolling σ) Evaluated :=
  e.mapM fun dice => ExceptT.adapt (EvalError.mk dice) (dice.roll true)

end DiceFormula.Expr
