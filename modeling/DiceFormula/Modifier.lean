import DiceFormula.Condition

/-!
# Modifiers of a set of dice

A modifier changes a set of dice after it has been thrown: it selects dice by
their values, limits the values that are counted, or throws further dice.
This module holds the modifiers and their texts; what each does to a set is
told in the modules below `DiceFormula.Modifier`.
-/

namespace DiceFormula

/-- An end of the scale on which a selection starts. -/
inductive Extreme where
  | highest
  | lowest
  deriving DecidableEq

/-- What can be done to a set of dice after it has been thrown. -/
inductive Modifier where
  /-- Only the `n` highest or lowest dice count. -/
  | keep (extreme : Extreme) (n : UInt16)
  /-- The `n` highest or lowest dice do not count. -/
  | drop (extreme : Extreme) (n : UInt16)
  /-- A die counts for no less than the bound. -/
  | atLeast (bound : Value)
  /-- A die counts for no more than the bound. -/
  | atMost (bound : Value)
  /-- A die that meets the condition, or shows the highest face if there is
  none, is followed by another one, and that one likewise. -/
  | explode (condition : Option Condition)
  /-- A die that meets the condition, or shows the lowest face if there is
  none, is thrown again, either once or for as long as it does. -/
  | reroll (condition : Option Condition) (recurse : Bool)
  deriving DecidableEq

/-- The letter of an end of the scale. -/
def Extreme.letter : Extreme → String
  | highest => "h"
  | lowest => "l"

namespace Modifier

/-- The notation of a modifier. -/
def text : Modifier → String
  | keep extreme n => "k" ++ extreme.letter ++ n.toNat.repr
  | drop extreme n => "d" ++ extreme.letter ++ n.toNat.repr
  | atLeast bound => "min" ++ Value.text bound
  | atMost bound => "max" ++ Value.text bound
  | explode condition => "!" ++ (condition.map Condition.text).getD ""
  | reroll condition recurse =>
    (if recurse then "rr" else "r") ++ (condition.map Condition.text).getD ""

/-- The number of dice a selection keeps or drops. -/
def selectionCount? : Modifier → Option UInt16
  | keep _ n => some n
  | drop _ n => some n
  | _ => none

/-- Whether the modifier throws dice in place of others. -/
def isReroll : Modifier → Bool
  | reroll _ _ => true
  | _ => false

end Modifier

end DiceFormula
