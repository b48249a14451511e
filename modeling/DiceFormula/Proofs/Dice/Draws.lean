import DiceFormula.Proofs.Dice.Roll
import Mathlib.Algebra.Order.Ring.Nat
import Mathlib.Data.List.Perm.Basic

/-!
# Where the draws are

Every value that is drawn for a set can be found on the table: it is a face
that some die has shown. A die that is thrown shows the value at first, and a
die that is thrown again shows it from then on and remembers the face before.
The modifiers only move between the two, and those that throw nothing leave the
faces alone; `Accounted` is what all of them keep, and it can be chained.

## Main results

* `Modifier.Replaces.accounted` — what becomes of a die shows the faces of the
  die and the values thrown for it.
* `Rolled.Modified.accounted`, `Rolled.Modified.length_le` — so do lists of
  modifiers, and only explosions make a set larger.
* `Dice.draws_accounted` — in a roll, no draw is lost, doubled or made up.
-/

namespace DiceFormula

open Chain Rolling

variable {σ : Type}

/-! ## Faces -/

namespace Die

/-- The changes made by throwing the die again, the oldest first. -/
def rerolls (die : Die) : List Change :=
  die.changes.filter fun change => change.cause.isReroll

/-- The face the die showed before it was thrown again. -/
def firstFace (die : Die) : Value :=
  match die.rerolls with
  | [] => die.face
  | change :: _ => change.before

/-- The faces the die has shown, one after the other. -/
def facesShown (die : Die) : List Value :=
  die.firstFace :: die.rerolls.map Change.after

variable {die : Die} {cause : Modifier}

theorem facesShown_clamp (h : cause.isReroll = false) (v : Value) :
    (die.clamp cause v).facesShown = die.facesShown := by
  simp [facesShown, firstFace, rerolls, clamp, h]

theorem facesShown_change (h : cause.isReroll = true) (v : Value) :
    (die.change cause v).facesShown = die.facesShown ++ [v] := by
  have hRerolls : (die.change cause v).rerolls =
      die.rerolls ++ [⟨die.face, v, cause⟩] := by
    simp [rerolls, change, h]
  rw [facesShown, facesShown, firstFace, firstFace, hRerolls]
  cases die.rerolls <;> simp

/-- A die that is thrown again and again has shown all the values thrown. -/
theorem facesShown_foldl_change (h : cause.isReroll = true)
    (values : List Value) :
    (values.foldl (fun die v => die.change cause v) die).facesShown =
      die.facesShown ++ values := by
  induction values generalizing die with
  | nil => simp
  | cons v values ih =>
      rw [List.foldl_cons, ih, facesShown_change h, List.append_assoc]
      rfl

theorem isInitial_foldl_change (values : List Value) :
    (values.foldl (fun die v => die.change cause v) die).isInitial =
      die.isInitial := by
  induction values generalizing die with
  | nil => rfl
  | cons v values ih => rw [List.foldl_cons, ih]; rfl

end Die

/-! ## Accounts -/

/-- The first faces of the dice that were thrown at first. -/
def initialFaces (rolls : List Die) : List Value :=
  (rolls.filter Die.isInitial).map Die.firstFace

/-- Between `rolls` and `rolls'`, the values were thrown: the later dice have
shown what the earlier ones had shown and the values, and the dice thrown at
first have not been touched. -/
structure Accounted (rolls : List Die) (values : List Value)
    (rolls' : List Die) : Prop where
  shown : (rolls'.flatMap Die.facesShown).Perm
    (rolls.flatMap Die.facesShown ++ values)
  initial : initialFaces rolls' = initialFaces rolls

namespace Accounted

variable {rolls rolls' rolls'' : List Die} {values more : List Value}

theorem refl (rolls : List Die) : Accounted rolls [] rolls :=
  ⟨by rw [List.append_nil], rfl⟩

theorem trans (h : Accounted rolls values rolls')
    (h' : Accounted rolls' more rolls'') :
    Accounted rolls (values ++ more) rolls'' := by
  refine ⟨h'.shown.trans ?_, h'.initial.trans h.initial⟩
  rw [← List.append_assoc]
  exact h.shown.append_right more

theorem append {others others' : List Die} (h : Accounted rolls values rolls')
    (h' : Accounted others more others') :
    Accounted (rolls ++ others) (values ++ more) (rolls' ++ others') := by
  constructor
  · rw [List.flatMap_append, List.flatMap_append]
    refine (h.shown.append h'.shown).trans ?_
    -- The values of the first half pass the faces of the second half.
    rw [List.append_assoc, List.append_assoc]
    refine List.Perm.append_left _ ?_
    rw [← List.append_assoc, ← List.append_assoc]
    exact List.perm_append_comm.append_right more
  · simp only [initialFaces, List.filter_append, List.map_append]
    exact congrArg₂ (· ++ ·) h.initial h'.initial

/-- A die in whose place comes one die that has shown the values as well. -/
theorem of_die {die die' : Die}
    (hShown : die'.facesShown = die.facesShown ++ values)
    (hInitial : die'.isInitial = die.isInitial) :
    Accounted [die] values [die'] := by
  have hFirst : die'.firstFace = die.firstFace := by
    have hHead := congrArg List.head? hShown
    exact Option.some.inj hHead
  constructor
  · simp [hShown]
  · simp only [initialFaces, List.filter_cons, hInitial]
    split <;> simp [hFirst]

/-- Dice that a modifier has added. -/
theorem of_added {cause : Modifier} {qualifies : Value → Bool}
    (values : List Value) :
    Accounted [] values (values.map (Explosion.follower cause qualifies)) := by
  have hShown : ∀ v, (Explosion.follower cause qualifies v).facesShown = [v] :=
    fun _ => rfl
  have hInitial : ∀ v,
      (Explosion.follower cause qualifies v).isInitial = false := fun _ => rfl
  constructor
  · simp [List.flatMap_map, hShown]
  · simp [initialFaces, List.filter_map, Function.comp_def, hInitial]

end Accounted

/-! ## Modifiers -/

/-- Whether the modifier makes dice explode. -/
def Modifier.isExplosion : Modifier → Bool
  | explode _ => true
  | _ => false

/-- How many dice may take the place of one. -/
def Modifier.growth (m : Modifier) : Nat := if m.isExplosion then 101 else 1

theorem Modifier.one_le_growth (m : Modifier) : 1 ≤ m.growth := by
  unfold growth
  split <;> decide

namespace Modifier.Replaces

variable {sides : Sides} {m : Modifier} {die : Die} {values : List Value}
  {outcome : Outcome}

/-- What becomes of a die shows the faces of the die and the values thrown for
it. -/
theorem accounted (h : m.Replaces sides die values outcome) :
    Accounted [die] values outcome.rolls := by
  cases h.effect with
  | untouched => exact .refl [die]
  | dropped => exact .of_die (List.append_nil _).symm rfl
  | raised | lowered =>
      exact .of_die (by rw [Die.facesShown_clamp rfl, List.append_nil]) rfl
  | @exploded condition _ _ _ _ _ hRolls =>
      rw [hRolls]
      have hDie : Accounted [die] [] [die.explode (.explode condition)] :=
        .of_die (List.append_nil _).symm rfl
      exact hDie.append (.of_added values)
  | rerolled _ _ _ hRolls =>
      rw [hRolls]
      exact .of_die (Die.facesShown_foldl_change rfl values)
        (Die.isInitial_foldl_change values)

/-- Only an explosion puts several dice in the place of one. -/
theorem length_le (h : m.Replaces sides die values outcome) :
    outcome.rolls.length ≤ m.growth := by
  cases h.effect with
  | untouched | dropped | raised | lowered => exact one_le_growth _
  | exploded _ _ hRan hRolls =>
      have hChain : values.length ≤ 100 := hRan.length_le
      rw [hRolls, List.length_cons, List.length_map]
      exact Nat.succ_le_succ hChain
  | rerolled _ _ _ hRolls =>
      rw [hRolls]
      exact Nat.le_refl 1

end Modifier.Replaces

/-- A set that was gone through accounts for the values if its dice do. -/
theorem Chain.Walked.accounted {P : Die → List Value → Outcome → Prop}
    {rolls : List Die} {values : List Value} {outcome : Outcome}
    (hDie : ∀ die values outcome, P die values outcome →
      Accounted [die] values outcome.rolls)
    (h : Walked P rolls values outcome) :
    Accounted rolls values outcome.rolls := by
  induction h with
  | done => exact .refl []
  | passed hStep _ ih => exact (hDie _ _ _ hStep).append ih
  | @stopped die rest dice values hStep =>
      have hMore := (hDie _ _ _ hStep).append (.refl rest)
      rwa [List.append_nil] at hMore

namespace Rolled

variable {set set' : Rolled} {ms : List Modifier} {values : List Value}

/-- Modifiers that succeed account for the values they throw. -/
theorem Modified.accounted (h : set.Modified ms values (.ok set')) :
    Accounted set.rolls values set'.rolls := by
  generalize hResult : Except.ok set' = result at h
  induction h with
  | done =>
      cases hResult
      exact .refl _
  | failed => cases hResult
  | applied hFirst _ ih =>
      cases hFirst with
      | finished _ hWalked =>
          exact (hWalked.accounted fun _ _ _ => Modifier.Replaces.accounted).trans
            (ih hResult)

/-- The bound for a list is that of its first modifier times that of the
others. -/
theorem growth_mul_pow (m : Modifier) (ms : List Modifier) :
    m.growth * 101 ^ (ms.filter Modifier.isExplosion).length =
      101 ^ ((m :: ms).filter Modifier.isExplosion).length := by
  unfold Modifier.growth
  cases h : m.isExplosion with
  | false => simp [h]
  | true => simp [h, Nat.pow_succ, Nat.mul_comm]

/-- With each explosion a set grows to the hundred and one fold at most. -/
theorem Modified.length_le (h : set.Modified ms values (.ok set')) :
    set'.rolls.length ≤
      set.rolls.length * 101 ^ (ms.filter Modifier.isExplosion).length := by
  generalize hResult : Except.ok set' = result at h
  induction h with
  | done =>
      cases hResult
      simp
  | failed => cases hResult
  | @applied set middle m ms values more result hFirst _ ih =>
      have hLater := ih hResult
      cases hFirst with
      | @finished _ rolls _ hWalked =>
          have hStep : rolls.length ≤ set.rolls.length * m.growth :=
            hWalked.length_le m.one_le_growth fun _ _ _ =>
              Modifier.Replaces.length_le
          calc set'.rolls.length
              ≤ rolls.length * 101 ^ (ms.filter Modifier.isExplosion).length :=
                hLater
            _ ≤ set.rolls.length * m.growth *
                  101 ^ (ms.filter Modifier.isExplosion).length :=
                Nat.mul_le_mul_right _ hStep
            _ = set.rolls.length *
                  101 ^ ((m :: ms).filter Modifier.isExplosion).length := by
                rw [Nat.mul_assoc, growth_mul_pow]

/-- The dice of a set that was just thrown have shown one face each. -/
theorem facesShown_ofFaces (dice : Dice) (faces : List Value) :
    (ofFaces dice faces).rolls.flatMap Die.facesShown = faces := by
  have hShown : ∀ v, (Die.ofFace v).facesShown = [v] := fun _ => rfl
  simp [ofFaces, List.flatMap_map, hShown]

theorem initialFaces_ofFaces (dice : Dice) (faces : List Value) :
    initialFaces (ofFaces dice faces).rolls = faces := by
  have hInitial : ∀ v, (Die.ofFace v).isInitial = true := fun _ => rfl
  have hFirst : ∀ v, (Die.ofFace v).firstFace = v := fun _ => rfl
  simp [initialFaces, ofFaces, List.filter_map, Function.comp_def, hInitial, hFirst]

end Rolled

/-! ## Rolls -/

/-- Draws from the interval of the faces are told apart by their values. -/
theorem Sides.eq_map_draw {sides : Sides} {drawn : List Draw}
    (h : ∀ draw ∈ drawn, sides.Asks draw.lo draw.hi) :
    drawn = (drawn.map Draw.value).map (Draw.mk sides.minFace sides.maxFace) := by
  have hSame : drawn.map id =
      drawn.map (Draw.mk sides.minFace sides.maxFace ∘ Draw.value) := by
    refine List.map_congr_left fun draw hMem => ?_
    obtain ⟨hLo, hHi⟩ := h draw hMem
    show draw = ⟨sides.minFace, sides.maxFace, draw.value⟩
    rw [← hLo, ← hHi]
  rwa [List.map_id, ← List.map_map] at hSame

/-- In a roll that succeeds, no draw is lost, doubled or made up. The values
are drawn from the interval of the faces; there is one for each die on the
table and one for each time a die was thrown again; they are the first faces of
the dice and the faces shown after a reroll; the dice thrown at first are as
many as the set has, and show the first values in order; and with each
explosion the set grows to the hundred and one fold at most. -/
theorem Dice.draws_accounted {dice : Dice} {roller : Roller σ}
    {table last : Table σ} {set : Rolled}
    (h : (dice.roll true).run roller table = (.ok (.ok set), last)) :
    ∃ values : List Value,
      last.draws = table.draws ++
        values.map (Draw.mk dice.sides.minFace dice.sides.maxFace) ∧
      values.length =
        set.rolls.length + (set.rolls.flatMap Die.rerolls).length ∧
      values.Perm (set.rolls.map Die.firstFace ++
        (set.rolls.flatMap Die.rerolls).map Change.after) ∧
      (set.rolls.filter Die.isInitial).length = dice.count.toNat ∧
      (set.rolls.filter Die.isInitial).map Die.firstFace =
        values.take dice.count.toNat ∧
      set.rolls.length ≤ dice.count.toNat *
        101 ^ (dice.modifiers.filter Modifier.isExplosion).length := by
  obtain ⟨drawn, hDraws, hAsks, first, more, hValues, hLength, hModified⟩ :=
    (dice.ensures_roll true).of_run_eq_ok h
  rw [if_pos rfl] at hModified
  have hAccounted := hModified.accounted
  have hShown := hAccounted.shown
  have hInitial := hAccounted.initial
  rw [Rolled.facesShown_ofFaces, ← hValues] at hShown
  rw [Rolled.initialFaces_ofFaces] at hInitial
  have hSize := hModified.length_le
  have hPerm : (drawn.map Draw.value).Perm (set.rolls.map Die.firstFace ++
      (set.rolls.flatMap Die.rerolls).map Change.after) := by
    rw [List.map_flatMap]
    exact hShown.symm.trans (List.map_append_flatMap_perm set.rolls Die.firstFace
      fun die => die.rerolls.map Change.after).symm
  refine ⟨drawn.map Draw.value, ?_, ?_, hPerm, ?_, ?_, ?_⟩
  · rw [hDraws, ← Sides.eq_map_draw hAsks]
  · rw [hPerm.length_eq, List.length_append, List.length_map, List.length_map]
  · rw [← hLength, ← hInitial, initialFaces, List.length_map]
  · rw [hValues, ← hLength, List.take_left]
    exact hInitial
  · rw [← hLength]
    simpa [Rolled.ofFaces] using hSize

/-- Two dice, of which one is thrown again and the other explodes twice. -/
theorem Dice.draws_accounted_explosion :
    ∃ (set : Rolled) (last : Table (List Value)) (values : List Value),
      ((⟨2, .numbered 6, [.reroll none true, .explode none]⟩ : Dice).roll true).run
          Roller.listed (Table.new [1, 6, 3, 6, 2]) = (.ok (.ok set), last) ∧
        last.draws = (#[] : Array Draw) ++ values.map (Draw.mk 1 6) ∧
        values.length = 4 + 1 ∧
        values.Perm (set.rolls.map Die.firstFace ++
          (set.rolls.flatMap Die.rerolls).map Change.after) ∧
        (set.rolls.filter Die.isInitial).map Die.firstFace = values.take 2 := by
  have hRun : (((⟨2, .numbered 6, [.reroll none true, .explode none]⟩ :
      Dice).roll true).run Roller.listed (Table.new [1, 6, 3, 6, 2])).1 =
      .ok (.ok ⟨⟨2, .numbered 6, [.reroll none true, .explode none]⟩,
        [(Die.ofFace 1).change (.reroll none true) 3,
          (Die.ofFace 6).explode (.explode none),
          Explosion.follower (.explode none) (· == 6) 6,
          Explosion.follower (.explode none) (· == 6) 2]⟩) := by
    rfl
  obtain ⟨values, hDraws, hLength, hPerm, -, hInitial, -⟩ :=
    Dice.draws_accounted (Prod.ext hRun rfl)
  exact ⟨_, _, values, Prod.ext hRun rfl, hDraws, hLength, hPerm, hInitial⟩

end DiceFormula
