import DiceFormula.Modifier
import DiceFormula.Sides

/-!
# Sets of dice

A set of dice is described by how many there are, what is on their sides and
which modifiers follow, in this order: `4d6kh3`.
-/

namespace DiceFormula

/-- A set of equal dice and what is done to it once it has been thrown. -/
structure Dice where
  count : UInt16
  sides : Sides
  modifiers : List Modifier
  deriving DecidableEq

namespace Dice

/-- A single die with twenty sides. -/
def d20 : Dice := ⟨1, .numbered 20, []⟩

instance : Inhabited Dice := ⟨d20⟩

/-- The same dice without their modifiers. -/
def plain (dice : Dice) : Dice := { dice with modifiers := [] }

/-- The notation of a set of dice. -/
def text (dice : Dice) : String :=
  dice.count.toNat.repr ++ "d" ++ dice.sides.text ++
    String.join (dice.modifiers.map Modifier.text)

end Dice

end DiceFormula
