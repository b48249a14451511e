import DiceFormula.Halt

/-!
# Rollers

A roller gives the values that dice show. It is asked for a value of a closed
interval and answers one together with its next state; the state may be of any
type, and nothing but the roller looks at it. A roller may break its promise
and answer a value from outside the interval, or none at all.
-/

namespace DiceFormula

/-- A source of values with states of type `σ`. -/
structure Roller (σ : Type) where
  /-- The value for the interval from `lo` to `hi`, and the next state. -/
  draw : (state : σ) → (lo hi : Value) → Except Halt (Value × σ)

namespace Roller

/-- Gives the values of a list one after the other, whatever the interval. -/
def listed : Roller (List Value) where
  draw values _ _ :=
    match values with
    | v :: rest => .ok (v, rest)
    | [] => .error .outOfValues

/-- Always gives the same value, which is its state. -/
def constant : Roller Value where
  draw v _ _ := .ok (v, v)

/-- Always gives the upper end of the interval. -/
def highest : Roller Unit where
  draw _ _ hi := .ok (hi, ())

end Roller

end DiceFormula
