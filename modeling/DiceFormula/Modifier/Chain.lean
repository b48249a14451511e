import DiceFormula.Rolling

/-!
# Chains of throws

Exploding and rerolling go through a set from left to right and stop at each
die that asks for it, to throw a chain of dice. A chain ends with the first
throw that asks for no further one. If a hundred throws in a row all ask for
another, the chain is given up and the set is not gone through any further.

## Main results

* `walkFrom_eq` — what has been passed only goes in front of the result.
* `walk_cons` — a set is gone through die by die.
-/

namespace DiceFormula.Chain

/-- The greatest number of throws a single die may be followed by. -/
def limit : Nat := 100

/-- What became of the dice that were gone through, and whether no chain was
given up on the way. -/
structure Outcome where
  rolls : List Die
  finished : Bool
  deriving DecidableEq

/-- Goes through a set behind the dice that have been `passed`, the last one
first. What `step` makes of a die takes its place; where it does not finish,
the dice behind it stay as they are. -/
def walkFrom {σ : Type} (step : Die → Rolling σ Outcome) (passed : List Die) :
    List Die → Rolling σ Outcome
  | [] => return ⟨passed.reverse, true⟩
  | die :: rest => do
    let outcome ← step die
    let passed := outcome.rolls.reverseAux passed
    if outcome.finished then walkFrom step passed rest
    else return ⟨passed.reverse ++ rest, false⟩

/-- Goes through a set from its first die on. -/
def walk {σ : Type} (step : Die → Rolling σ Outcome) (rolls : List Die) :
    Rolling σ Outcome :=
  walkFrom step [] rolls

theorem walkFrom_eq {σ : Type} (step : Die → Rolling σ Outcome)
    (passed rolls : List Die) :
    walkFrom step passed rolls = do
      let outcome ← walk step rolls
      return ⟨passed.reverse ++ outcome.rolls, outcome.finished⟩ := by
  unfold walk
  induction rolls generalizing passed with
  | nil => simp [walkFrom]
  | cons die rest ih =>
    simp only [walkFrom, bind_assoc]
    congr 1
    funext outcome
    cases hFinished : outcome.finished with
    | false => simp [List.reverseAux_eq]
    | true =>
      simp only [if_true]
      rw [ih, ih (outcome.rolls.reverseAux [])]
      simp [List.reverseAux_eq]

/-- Going through a set that starts with `die` is going through what is behind
it once `die` has been replaced. -/
theorem walk_cons {σ : Type} (step : Die → Rolling σ Outcome) (die : Die)
    (rest : List Die) :
    walk step (die :: rest) = do
      let outcome ← step die
      if outcome.finished then
        let others ← walk step rest
        return ⟨outcome.rolls ++ others.rolls, others.finished⟩
      else return ⟨outcome.rolls ++ rest, false⟩ := by
  rw [walk, walkFrom]
  congr 1
  funext outcome
  cases hFinished : outcome.finished with
  | false => simp [List.reverseAux_eq]
  | true =>
    simp only [if_true]
    rw [walkFrom_eq]
    simp [List.reverseAux_eq]

@[simp] theorem walk_nil {σ : Type} (step : Die → Rolling σ Outcome) :
    walk step [] = return ⟨[], true⟩ := rfl

end DiceFormula.Chain
