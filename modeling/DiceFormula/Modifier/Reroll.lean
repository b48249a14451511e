import DiceFormula.Modifier.Chain

/-!
# Rerolling dice

A die that meets the condition is thrown again in its place, once or for as
long as it meets the condition. A chain that is given up leaves the set as it
is at that moment.
-/

namespace DiceFormula.Reroll

open Chain

variable {σ : Type}

/-- Throws a die again until it does not meet the condition, at most `budget`
times. -/
def chain (cause : Modifier) (sides : Sides) (qualifies : Value → Bool) :
    (budget : Nat) → Die → Rolling σ Outcome
  | 0, die => return ⟨[die], false⟩
  | budget + 1, die => do
    let thrown ← Rolling.throwDie sides
    let die := die.change cause thrown.face
    if qualifies die.face then chain cause sides qualifies budget die
    else return ⟨[die], true⟩

/-- Throws a die again once. -/
def once (cause : Modifier) (sides : Sides) (die : Die) :
    Rolling σ Outcome := do
  let thrown ← Rolling.throwDie sides
  return ⟨[die.change cause thrown.face], true⟩

/-- What takes the place of a die. -/
def step (cause : Modifier) (sides : Sides) (qualifies : Value → Bool)
    (recurse : Bool) (die : Die) : Rolling σ Outcome :=
  if die.isKept && qualifies die.face then
    if recurse then chain cause sides qualifies limit die
    else once cause sides die
  else
    return ⟨[die], true⟩

/-- Throws dice of a set again. If every face asked for another throw nothing
is thrown at all. -/
def apply (cause : Modifier) (condition : Option Condition) (recurse : Bool)
    (set : Rolled) : Rolling σ (Rolled × Option Dice.Error) := do
  let sides := set.dice.sides
  let qualifies := Condition.acceptsOr sides.minFace condition
  if recurse && sides.faces.all qualifies then
    return (set, some (.infiniteRolls set.dice))
  else
    let outcome ← walk (step cause sides qualifies recurse) set.rolls
    return ({ set with rolls := outcome.rolls },
      if outcome.finished then none else some (.rollLimit set.dice))

end DiceFormula.Reroll
