import DiceFormula.Dice.Roll
import DiceFormula.Proofs.Modifier.Application

/-!
# What rolling a set comes to

The first values drawn are the faces of the dice that are thrown at first, and
all further ones go to the modifiers.

## Main results

* `Dice.ensures_roll` — a roll is a throw of all dice and a run of the
  modifiers, with every roller.
* `Dice.dice_eq_of_run_roll` — what was rolled is what was to be rolled.
-/

namespace DiceFormula.Dice

open Rolling

variable {σ : Type}

theorem ensures_throwFrom (sides : Sides) (n : Nat) :
    Ensures sides.Asks (throwFrom sides [] n : Rolling σ (List Die))
      fun values rolls => values.length = n ∧ rolls = values.map Die.ofFace := by
  induction n with
  | zero => exact ensures_pure ⟨rfl, rfl⟩
  | succ n ih =>
      rw [throwFrom]
      refine (ensures_throwDie ⟨rfl, rfl⟩).bind ?_
      rintro _ _ ⟨v, rfl, rfl⟩
      rw [throwFrom_eq]
      exact ih.bind_pure fun more rolls hMore =>
        ⟨by simp [hMore.1], by simp [hMore.2]⟩

theorem ensures_throwPlain (dice : Dice) :
    Ensures dice.sides.Asks (dice.throwPlain : Rolling σ Rolled)
      fun values set => values.length = dice.count.toNat ∧
        set = .ofFaces dice values := by
  unfold throwPlain
  refine (ensures_throwFrom dice.sides dice.count.toNat).bind_pure ?_
  rintro values _ ⟨hLength, rfl⟩
  exact ⟨hLength, rfl⟩

/-- A set is thrown once for every die, and then its modifiers are applied. -/
theorem ensures_roll (dice : Dice) (modify : Bool) :
    Ensures dice.sides.Asks
      (dice.roll modify : ExceptT Dice.Error (Rolling σ) Rolled).run
      fun values result => ∃ first more, values = first ++ more ∧
        first.length = dice.count.toNat ∧
        Rolled.Modified (.ofFaces dice first)
          (if modify then dice.modifiers else []) more result := by
  unfold roll
  refine (ensures_throwPlain dice).run_lift_bind ?_
  rintro first _ ⟨hLength, rfl⟩
  refine (Rolled.ensures_modify (.ofFaces dice first) _).run_bind ?_ ?_
  · intro more err hModified
    exact ⟨first, more, rfl, hLength, hModified⟩
  · intro more set hModified
    refine (ensures_note (.thrown set)).run_lift_bind ?_
    rintro _ _ rfl
    refine ensures_pure ⟨first, more, ?_, hLength, hModified⟩
    rw [List.append_nil, List.append_nil]

/-- A set that has been rolled is one of the dice that were to be thrown. -/
theorem dice_eq_of_run_roll {dice : Dice} {modify : Bool} {roller : Roller σ}
    {table last : Table σ} {set : Rolled}
    (h : (dice.roll modify).run roller table = (.ok (.ok set), last)) :
    set.dice = dice := by
  obtain ⟨_, -, -, _, _, -, -, hModified⟩ :=
    (dice.ensures_roll modify).of_run_eq_ok h
  exact hModified.dice_eq set rfl

end DiceFormula.Dice
