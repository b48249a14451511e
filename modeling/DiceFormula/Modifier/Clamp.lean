import DiceFormula.Rolled

/-!
# Limits on what dice count for

A limit lets the dice in the total that lie beyond it count for the limit
itself. Their faces stay as they are.
-/

namespace DiceFormula.Clamp

/-- Lets every die in the total count for at least `bound`. -/
def raise (cause : Modifier) (bound : Value) (rolls : List Die) : List Die :=
  rolls.map fun die =>
    if die.isKept && die.counted < bound then die.clamp cause bound else die

/-- Lets every die in the total count for at most `bound`. -/
def lower (cause : Modifier) (bound : Value) (rolls : List Die) : List Die :=
  rolls.map fun die =>
    if die.isKept && bound < die.counted then die.clamp cause bound else die

end DiceFormula.Clamp
