import DiceFormula.Proofs.Dice.Roll
import DiceFormula.Proofs.Rolling.Lockstep

/-!
# Rolls in lockstep

Throwing a set of dice and applying its modifiers is the same computation
whatever the roller and whatever is on the table: two runs that are given equal
values go on together. What they ask for is the interval of the faces, so it is
enough that the draws from that interval are equal.

## Main results

* `Modifier.agree_apply` — modifiers go on together, if they throw at all.
* `Dice.agree_roll` — and so do rolls of one set.
* `Dice.run_roll_eq_iff` — what a roll does on a table it does alone.
-/

namespace DiceFormula

open Lockstep Rolling

variable {σ τ : Type} {runs : Lockstep σ τ} {asks : Value → Value → Prop}
  {sides : Sides}

/-! ## Chains -/

namespace Chain

/-- A walk goes on together if its steps do. -/
theorem agree_walk {step : Die → Rolling σ Outcome}
    {step' : Die → Rolling τ Outcome}
    (h : ∀ die, runs.Agree (step die) (step' die)) (rolls : List Die) :
    runs.Agree (walk step rolls) (walk step' rolls) := by
  induction rolls with
  | nil => exact agree_pure _
  | cons die rest ih =>
      rw [walk_cons, walk_cons]
      refine (h die).bind fun outcome => ?_
      cases outcome.finished with
      | false => exact agree_pure _
      | true => exact ih.bind fun others => agree_pure _

end Chain

namespace Explosion

variable {cause : Modifier} {qualifies : Value → Bool}

theorem agree_chain (hRuns : runs.Keeps asks)
    (hAsks : asks sides.minFace sides.maxFace) (budget : Nat) :
    runs.Agree (chain cause sides qualifies budget)
      (chain cause sides qualifies budget) := by
  induction budget with
  | zero => exact agree_pure _
  | succ budget ih =>
      refine (hRuns.throwDie hAsks).bind fun die => ?_
      refine (agree_ofExcept _).bind fun die => ?_
      cases qualifies die.face with
      | false => exact agree_pure _
      | true => exact ih.bind fun others => agree_pure _

theorem agree_step (hRuns : runs.Keeps asks)
    (hAsks : asks sides.minFace sides.maxFace) (die : Die) :
    runs.Agree (step cause sides qualifies die)
      (step cause sides qualifies die) := by
  unfold step
  cases die.isKept && qualifies die.face with
  | false => exact agree_pure _
  | true => exact (agree_chain hRuns hAsks _).bind fun others => agree_pure _

theorem agree_apply {set : Rolled} (hRuns : runs.Keeps asks)
    (hAsks : asks set.dice.sides.minFace set.dice.sides.maxFace)
    (condition : Option Condition) :
    runs.Agree (apply cause condition set) (apply cause condition set) := by
  unfold apply
  dsimp only
  cases set.dice.sides.faces.all
      (Condition.acceptsOr set.dice.sides.maxFace condition) with
  | true => exact agree_pure _
  | false =>
      refine (Chain.agree_walk (agree_step hRuns hAsks) set.rolls).bind
        fun outcome => ?_
      cases outcome.finished with
      | false => exact agree_pure _
      | true => exact agree_pure _

end Explosion

namespace Reroll

variable {cause : Modifier} {qualifies : Value → Bool}

theorem agree_chain (hRuns : runs.Keeps asks)
    (hAsks : asks sides.minFace sides.maxFace) (budget : Nat) (die : Die) :
    runs.Agree (chain cause sides qualifies budget die)
      (chain cause sides qualifies budget die) := by
  induction budget generalizing die with
  | zero => exact agree_pure _
  | succ budget ih =>
      refine (hRuns.throwDie hAsks).bind fun thrown => ?_
      dsimp only
      cases qualifies (die.change cause thrown.face).face with
      | false => exact agree_pure _
      | true => exact ih _

theorem agree_step (hRuns : runs.Keeps asks)
    (hAsks : asks sides.minFace sides.maxFace) (recurse : Bool) (die : Die) :
    runs.Agree (step cause sides qualifies recurse die)
      (step cause sides qualifies recurse die) := by
  unfold step
  cases die.isKept && qualifies die.face with
  | false => exact agree_pure _
  | true =>
      cases recurse with
      | false => exact (hRuns.throwDie hAsks).bind fun thrown => agree_pure _
      | true => exact agree_chain hRuns hAsks _ die

theorem agree_apply {set : Rolled} (hRuns : runs.Keeps asks)
    (hAsks : asks set.dice.sides.minFace set.dice.sides.maxFace)
    (condition : Option Condition) (recurse : Bool) :
    runs.Agree (apply cause condition recurse set)
      (apply cause condition recurse set) := by
  unfold apply
  dsimp only
  cases recurse && set.dice.sides.faces.all
      (Condition.acceptsOr set.dice.sides.minFace condition) with
  | true => exact agree_pure _
  | false =>
      exact (Chain.agree_walk (agree_step hRuns hAsks recurse) set.rolls).bind
        fun outcome => agree_pure _

end Reroll

/-! ## Modifiers -/

theorem Modifier.agree_apply {set : Rolled} (hRuns : runs.Keeps asks)
    (hAsks : asks set.dice.sides.minFace set.dice.sides.maxFace)
    (m : Modifier) : runs.Agree (m.apply set) (m.apply set) := by
  cases m with
  | keep extreme n => exact (agree_ofExcept _).bind fun rolls => agree_pure _
  | drop extreme n => exact (agree_ofExcept _).bind fun rolls => agree_pure _
  | atLeast bound => exact agree_pure _
  | atMost bound => exact agree_pure _
  | explode condition => exact Explosion.agree_apply hRuns hAsks condition
  | reroll condition recurse =>
      exact Reroll.agree_apply hRuns hAsks condition recurse

/-- Applying modifiers goes on together. The dice of the set stay the same, and
with them the interval that is asked for. -/
theorem Rolled.agree_modify {set : Rolled} (hRuns : runs.Keeps asks)
    (hAsks : asks set.dice.sides.minFace set.dice.sides.maxFace)
    (ms : List Modifier) :
    runs.Agree (set.modify ms : ExceptT Dice.Error (Rolling σ) Rolled).run
      (set.modify ms : ExceptT Dice.Error (Rolling τ) Rolled).run := by
  induction ms generalizing set with
  | nil => exact agree_pure _
  | cons m ms ih =>
      rw [modify, modify, ExceptT.run_bind_lift, ExceptT.run_bind_lift]
      refine (m.agree_apply hRuns hAsks).bind_of ?_
      rintro ⟨set', failure⟩ before after hRun
      obtain ⟨_, -, -, hApplied⟩ := (m.ensures_apply set).of_run_eq_ok hRun
      cases failure with
      | some err => exact agree_pure _
      | none =>
          refine ih ?_
          rw [hApplied.dice_eq]
          exact hAsks

/-! ## Sets of dice -/

namespace Dice

theorem agree_throwFrom (hRuns : runs.Keeps asks)
    (hAsks : asks sides.minFace sides.maxFace) (thrown : List Die) (n : Nat) :
    runs.Agree (throwFrom sides thrown n) (throwFrom sides thrown n) := by
  induction n generalizing thrown with
  | zero => exact agree_pure _
  | succ n ih => exact (hRuns.throwDie hAsks).bind fun die => ih _

/-- Rolls of one set go on together. -/
theorem agree_roll {dice : Dice} (hRuns : runs.Keeps asks)
    (hAsks : asks dice.sides.minFace dice.sides.maxFace) (modify : Bool) :
    runs.Agree (dice.roll modify : ExceptT Error (Rolling σ) Rolled).run
      (dice.roll modify : ExceptT Error (Rolling τ) Rolled).run := by
  unfold roll
  rw [ExceptT.run_bind_lift, ExceptT.run_bind_lift]
  have hThrown := agree_throwFrom hRuns hAsks [] dice.count.toNat
  refine Agree.bind_of (hThrown.bind fun rolls => agree_pure _) ?_
  intro set before after hRun
  obtain ⟨_, -, -, -, rfl⟩ := dice.ensures_throwPlain.of_run_eq_ok hRun
  refine (Rolled.agree_modify hRuns hAsks _).run_bind fun set => ?_
  rw [ExceptT.run_bind_lift, ExceptT.run_bind_lift]
  exact (hRuns.note _).bind fun _ => agree_pure _

/-- What a roll does on a table it does alone, on top of what was there. -/
theorem run_roll_eq_iff {dice : Dice} {modify : Bool} {roller : Roller σ}
    {table last : Table σ} {result : Except Halt (Except Error Rolled)} :
    (dice.roll modify).run roller table = (result, last) ↔
      ∃ alone, (dice.roll modify).run roller (.new table.state) =
          (result, alone) ∧ last = table.append alone := by
  rw [eq_of_agree_onTop (agree_roll (onTop_keeps roller table) trivial modify),
    Prod.mk.injEq]
  constructor
  · rintro ⟨rfl, rfl⟩
    exact ⟨_, rfl, rfl⟩
  · rintro ⟨alone, hAlone, rfl⟩
    rw [hAlone]
    exact ⟨rfl, rfl⟩

end Dice

end DiceFormula
