import DiceFormula.Dice

/-!
# Errors of a set of dice

What can go wrong with one set of dice, and the words it is reported in.
-/

namespace DiceFormula

/-- What can go wrong with a set of dice. -/
inductive Dice.Error where
  /-- The values that count have no total. -/
  | overflow
  /-- A modifier would throw further dice forever, because every face asks
  for another one. -/
  | infiniteRolls (dice : Dice)
  /-- A single die has been followed by more dice than is allowed. -/
  | rollLimit (dice : Dice)
  /-- No comparison is written with this symbol. -/
  | unknownCondition (symbol : String)
  deriving DecidableEq

/-- The text an error is reported with. -/
def Dice.Error.message : Dice.Error → String
  | overflow => "integer overflow"
  | infiniteRolls dice => dice.text ++ " would result in infinite rolls"
  | rollLimit dice =>
    dice.text ++ " exceeded the limit of chained rolls per die"
  | unknownCondition symbol => "unknown condition symbol: " ++ symbol

/-- The condition written with a symbol and a value. -/
def Condition.ofSymbol (symbol : String) (bound : Value) :
    Except Dice.Error Condition :=
  match Comparison.ofSymbol? symbol with
  | some comparison => .ok ⟨comparison, bound⟩
  | none => .error (.unknownCondition symbol)

theorem Condition.ofSymbol_symbol (condition : Condition) :
    Condition.ofSymbol condition.comparison.symbol condition.bound =
      .ok condition := by
  simp [Condition.ofSymbol, Comparison.ofSymbol?_symbol]

end DiceFormula
