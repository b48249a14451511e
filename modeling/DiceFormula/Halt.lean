import DiceFormula.Value

/-!
# Halts

An error answers a formula; a halt does not. It is what is left when the
source of the values breaks its promise, or when a mark that a die can bear
once is set a second time. Nothing goes on after a halt.
-/

namespace DiceFormula

/-- Why a roll was broken off without any answer. -/
inductive Halt where
  /-- A list of values had been used up. -/
  | outOfValues
  /-- A value was asked for from an interval that has none. -/
  | emptyRange (lo hi : Value)
  /-- A die that had been added by a modifier was added again. -/
  | addedTwice
  /-- A die that had been dropped by a modifier was dropped again. -/
  | droppedTwice
  deriving DecidableEq

/-- The text a halt is reported with. -/
def Halt.message : Halt → String
  | outOfValues => "iterator is finished"
  | emptyRange lo hi =>
    "empty range: Included(" ++ Value.text lo ++ ")..Included(" ++
      Value.text hi ++ ")"
  | addedTwice =>
    "marking a die as added that has already been marked as added by " ++
      "another modifier"
  | droppedTwice =>
    "marking a die as dropped that has already been marked as dropped by " ++
      "another modifier"

end DiceFormula
