import DiceFormula.Modifier.Application

/-!
# Rolling a set of dice

The dice of a set are thrown one by one, and then its modifiers are applied in
the order in which they are written.

## Main results

* `Dice.throwFrom_eq` — the dice thrown before only go in front of the result.
-/

namespace DiceFormula.Dice

variable {σ : Type}

/-- Throws `n` dice behind those that have been `thrown`, the last one
first. -/
def throwFrom (sides : Sides) (thrown : List Die) :
    (n : Nat) → Rolling σ (List Die)
  | 0 => return thrown.reverse
  | n + 1 => do
    let die ← Rolling.throwDie sides
    throwFrom sides (die :: thrown) n

/-- Throws the dice of a set without their modifiers. -/
def throwPlain (dice : Dice) : Rolling σ Rolled := do
  return ⟨dice, ← throwFrom dice.sides [] dice.count.toNat⟩

/-- Throws the dice of a set and applies its modifiers if `modify` says so. A
set that is complete is noted in the log. -/
def roll (dice : Dice) (modify : Bool) :
    ExceptT Dice.Error (Rolling σ) Rolled := do
  let set ← ExceptT.lift dice.throwPlain
  let set ← set.modify (if modify then dice.modifiers else [])
  ExceptT.lift (Rolling.note (.thrown set))
  return set

theorem throwFrom_eq (sides : Sides) (thrown : List Die) (n : Nat) :
    (throwFrom sides thrown n : Rolling σ (List Die)) = do
      return thrown.reverse ++ (← throwFrom sides [] n) := by
  induction n generalizing thrown with
  | zero => simp [throwFrom]
  | succ n ih =>
    simp only [throwFrom, bind_assoc]
    congr 1
    funext die
    rw [ih, ih [die]]
    simp

end DiceFormula.Dice
