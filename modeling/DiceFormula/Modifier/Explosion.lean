import DiceFormula.Modifier.Chain

/-!
# Exploding dice

A die that meets the condition is followed by another one of its kind, and
that one by a further one if it meets the condition itself. A chain that is
given up takes the whole set with it.
-/

namespace DiceFormula.Explosion

open Chain

variable {σ : Type}

/-- Throws the dice that follow an exploding die, of which there may be
`budget`. -/
def chain (cause : Modifier) (sides : Sides) (qualifies : Value → Bool) :
    (budget : Nat) → Rolling σ Outcome
  | 0 => return ⟨[], false⟩
  | budget + 1 => do
    let die ← Rolling.throwDie sides
    let die ← Rolling.ofExcept (die.add cause)
    if qualifies die.face then
      let others ← chain cause sides qualifies budget
      return ⟨die.explode cause :: others.rolls, others.finished⟩
    else
      return ⟨[die], true⟩

/-- A die together with the dice that follow it. -/
def step (cause : Modifier) (sides : Sides) (qualifies : Value → Bool)
    (die : Die) : Rolling σ Outcome :=
  if die.isKept && qualifies die.face then do
    let others ← chain cause sides qualifies limit
    return ⟨die.explode cause :: others.rolls, others.finished⟩
  else
    return ⟨[die], true⟩

/-- Lets the dice of a set explode. If every face asked for another die
nothing is thrown at all. -/
def apply (cause : Modifier) (condition : Option Condition) (set : Rolled) :
    Rolling σ (Rolled × Option Dice.Error) := do
  let sides := set.dice.sides
  let qualifies := Condition.acceptsOr sides.maxFace condition
  if sides.faces.all qualifies then
    return (set, some (.infiniteRolls set.dice))
  else
    let outcome ← walk (step cause sides qualifies) set.rolls
    if outcome.finished then return ({ set with rolls := outcome.rolls }, none)
    else return ({ set with rolls := [] }, some (.rollLimit set.dice))

end DiceFormula.Explosion
