import DiceFormula.Modifier.Clamp
import DiceFormula.Modifier.Explosion
import DiceFormula.Modifier.Reroll
import DiceFormula.Modifier.Selection

/-!
# Applying modifiers

What each modifier does to a set of dice on the table, and what a list of
modifiers does in turn.
-/

namespace DiceFormula

variable {σ : Type}

/-- Applies a modifier to a set. The answer is what is on the table then,
which may be a set half done if there is an error as well. -/
def Modifier.apply (m : Modifier) (set : Rolled) :
    Rolling σ (Rolled × Option Dice.Error) :=
  match m with
  | keep extreme n => do
    let rolls ← Rolling.ofExcept (Selection.keep m extreme n set.rolls)
    return ({ set with rolls }, none)
  | drop extreme n => do
    let rolls ← Rolling.ofExcept (Selection.drop m extreme n set.rolls)
    return ({ set with rolls }, none)
  | atLeast bound =>
    return ({ set with rolls := Clamp.raise m bound set.rolls }, none)
  | atMost bound =>
    return ({ set with rolls := Clamp.lower m bound set.rolls }, none)
  | explode condition => Explosion.apply m condition set
  | reroll condition recurse => Reroll.apply m condition recurse set

/-- Applies modifiers one after the other, up to the first that fails. -/
def Rolled.modify (set : Rolled) :
    List Modifier → ExceptT Dice.Error (Rolling σ) Rolled
  | [] => return set
  | m :: ms => do
    let (set, failure) ← ExceptT.lift (m.apply set)
    match failure with
    | some err => throw err
    | none => set.modify ms

end DiceFormula
