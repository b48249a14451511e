import DiceFormula.Modifier.Chain
import DiceFormula.Proofs.Rolling.Ensures
import Mathlib.Data.List.Forall2

/-!
# What a chain throws and what a walk leaves

The throws of a chain and the dice of a set are gone through by recursion, in a
computation that asks the roller for its values. Once the values are given
there is nothing left to chance: `Ran` says which values make up a chain, and
`Walked` what becomes of a set if it is known what becomes of each die.

## Main results

* `Ran.length_le` — a chain throws no more than its budget.
* `ensures_walk` — a walk makes of a set what its steps make of the dice.
* `Walked.length_le` — a set grows no more than its dice do.
* `Walked.forall_mem` — what every step keeps of a die, a walk keeps of all.
-/

namespace DiceFormula.Chain

variable {σ : Type}

/-! ## Chains -/

/-- These values may be thrown one after the other in a chain with a budget,
and then the chain is finished or not. Every throw but the last asks for
another one; the last does not, unless the budget is used up. -/
inductive Ran (qualifies : Value → Bool) : Nat → List Value → Bool → Prop
  | givenUp : Ran qualifies 0 [] false
  | ended {budget : Nat} {v : Value} (h : qualifies v = false) :
      Ran qualifies (budget + 1) [v] true
  | goesOn {budget : Nat} {v : Value} {values : List Value} {finished : Bool}
      (h : qualifies v = true) (hRest : Ran qualifies budget values finished) :
      Ran qualifies (budget + 1) (v :: values) finished

/-- A chain throws no more than its budget. -/
theorem Ran.length_le {qualifies : Value → Bool} {budget : Nat}
    {values : List Value} {finished : Bool}
    (h : Ran qualifies budget values finished) : values.length ≤ budget := by
  induction h with
  | givenUp => exact Nat.le_refl 0
  | ended => exact Nat.succ_le_succ (Nat.zero_le _)
  | goesOn _ _ ih => exact Nat.succ_le_succ ih

/-! ## Walks -/

/-- What becomes of a set that is gone through, if `P` says what becomes of a
die that is given these values. Behind a die that is not finished with, the set
stays as it is. -/
inductive Walked (P : Die → List Value → Outcome → Prop) :
    List Die → List Value → Outcome → Prop
  | done : Walked P [] [] ⟨[], true⟩
  | passed {die : Die} {rest dice : List Die} {values more : List Value}
      {outcome : Outcome} (h : P die values ⟨dice, true⟩)
      (hRest : Walked P rest more outcome) :
      Walked P (die :: rest) (values ++ more)
        ⟨dice ++ outcome.rolls, outcome.finished⟩
  | stopped {die : Die} {rest dice : List Die} {values : List Value}
      (h : P die values ⟨dice, false⟩) :
      Walked P (die :: rest) values ⟨dice ++ rest, false⟩

variable {P : Die → List Value → Outcome → Prop} {rolls : List Die}
  {values : List Value} {outcome : Outcome}

/-- A walk makes of a set what its steps make of the dice. -/
theorem ensures_walk {asks : Value → Value → Prop}
    {step : Die → Rolling σ Outcome}
    (h : ∀ die, Rolling.Ensures asks (step die) (P die)) (rolls : List Die) :
    Rolling.Ensures asks (walk step rolls) (Walked P rolls) := by
  induction rolls with
  | nil => exact Rolling.ensures_pure .done
  | cons die rest ih =>
      rw [walk_cons]
      refine (h die).bind fun values outcome hStep => ?_
      obtain ⟨dice, finished⟩ := outcome
      cases finished with
      | false =>
          refine Rolling.ensures_pure ?_
          rw [List.append_nil]
          exact .stopped hStep
      | true =>
          exact ih.bind_pure fun more others hRest => .passed hStep hRest

/-- A set of which every die is replaced by a die, with nothing thrown. -/
theorem Walked.of_forall₂ {rolls' : List Die}
    (h : List.Forall₂ (fun die die' => P die [] ⟨[die'], true⟩) rolls rolls') :
    Walked P rolls [] ⟨rolls', true⟩ := by
  induction h with
  | nil => exact .done
  | cons hDie _ ih =>
      show Walked P _ ([] ++ []) _
      exact .passed hDie ih

/-- A set grows no more than its dice do. -/
theorem Walked.length_le {n : Nat} (hn : 1 ≤ n)
    (hDie : ∀ die values outcome, P die values outcome → outcome.rolls.length ≤ n)
    (h : Walked P rolls values outcome) :
    outcome.rolls.length ≤ rolls.length * n := by
  induction h with
  | done => exact Nat.zero_le _
  | passed hStep _ ih =>
      have hFirst := hDie _ _ _ hStep
      simp only [List.length_append, List.length_cons, Nat.succ_mul] at hFirst ⊢
      omega
  | @stopped die rest dice values hStep =>
      have hFirst := hDie _ _ _ hStep
      have hRest : rest.length ≤ rest.length * n := Nat.le_mul_of_pos_right _ hn
      simp only [List.length_append, List.length_cons, Nat.succ_mul] at hFirst ⊢
      omega

/-- What holds of the dice of a set, and of every die that takes the place of one
of which it holds, holds of what is left. -/
theorem Walked.forall_mem {Q : Die → Prop}
    (hDie : ∀ die values outcome, P die values outcome → Q die →
      ∀ die' ∈ outcome.rolls, Q die')
    (h : Walked P rolls values outcome) (hRolls : ∀ die ∈ rolls, Q die) :
    ∀ die ∈ outcome.rolls, Q die := by
  induction h with
  | done => exact hRolls
  | passed hStep _ ih =>
      obtain ⟨hFirst, hRest⟩ := List.forall_mem_cons.1 hRolls
      exact List.forall_mem_append.2 ⟨hDie _ _ _ hStep hFirst, ih hRest⟩
  | stopped hStep =>
      obtain ⟨hFirst, hRest⟩ := List.forall_mem_cons.1 hRolls
      exact List.forall_mem_append.2 ⟨hDie _ _ _ hStep hFirst, hRest⟩

end DiceFormula.Chain
