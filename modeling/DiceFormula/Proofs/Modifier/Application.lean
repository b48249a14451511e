import DiceFormula.Modifier.Application
import DiceFormula.Proofs.Modifier.Chain
import DiceFormula.Proofs.Modifier.Selection

/-!
# What applying a modifier comes to

Every modifier goes through the set die by die, and what it makes of a die
depends on the die and the values thrown for it. `Modifier.Replaces` says so
for each kind of modifier, and `Modifier.Applied` tells from that all that
applying one can come to: it may be refused because it would never end, it may
be given up on the way, or it may go through the whole set. `Rolled.Modified`
does the same for a list of modifiers.

Whatever holds after a modifier has been applied follows from these, without
another look at how the values are asked for.

## Main results

* `Modifier.Replaces.effect` — what a modifier can do to a single die.
* `Modifier.ensures_apply`, `Rolled.ensures_modify` — applying modifiers comes
  to no more than that, with every roller.
* `Modifier.Applied.forall_mem`, `Rolled.Modified.preserves`,
  `Rolled.Modified.forall_mem` — what they keep of single dice they keep of a set,
  and what each of them keeps of a set all of them keep.
-/

namespace DiceFormula

open Chain Rolling

variable {σ : Type}

/-- This is the interval of the faces. -/
def Sides.Asks (sides : Sides) (lo hi : Value) : Prop :=
  lo = sides.minFace ∧ hi = sides.maxFace

/-! ## Explosions -/

namespace Explosion

/-- A die that shows `v` in the chain of an exploding die. -/
def follower (cause : Modifier) (qualifies : Value → Bool) (v : Value) : Die :=
  { Die.ofFace v with
    addedBy := some cause
    explodedBy := if qualifies v then some cause else none }

theorem follower_of_false {cause : Modifier} {qualifies : Value → Bool} {v : Value}
    (h : qualifies v = false) :
    follower cause qualifies v = { Die.ofFace v with addedBy := some cause } := by
  simp [follower, h, Die.ofFace]

theorem follower_of_true {cause : Modifier} {qualifies : Value → Bool} {v : Value}
    (h : qualifies v = true) :
    follower cause qualifies v =
      Die.explode cause { Die.ofFace v with addedBy := some cause } := by
  simp [follower, h, Die.explode]

/-- The die explodes if it is in the total and asks for it. -/
def Replaces (cause : Modifier) (qualifies : Value → Bool) (die : Die)
    (values : List Value) (outcome : Outcome) : Prop :=
  if die.isKept && qualifies die.face then
    Ran qualifies limit values outcome.finished ∧
      outcome.rolls = die.explode cause :: values.map (follower cause qualifies)
  else values = [] ∧ outcome = ⟨[die], true⟩

variable {cause : Modifier} {sides : Sides} {qualifies : Value → Bool}

theorem ensures_chain (budget : Nat) :
    Ensures sides.Asks
      (chain cause sides qualifies budget : Rolling σ Outcome)
      fun values outcome => Ran qualifies budget values outcome.finished ∧
        outcome.rolls = values.map (follower cause qualifies) := by
  induction budget with
  | zero => exact ensures_pure ⟨.givenUp, rfl⟩
  | succ budget ih =>
      refine (ensures_throwDie ⟨rfl, rfl⟩).bind ?_
      rintro _ _ ⟨v, rfl, rfl⟩
      have hAdd : (Die.ofFace v).add cause = _ := Die.add_of_isInitial rfl cause
      refine (ensures_ofExcept hAdd).bind ?_
      rintro _ die ⟨rfl, hDie⟩
      have hFace : die.face = v := by rw [hDie]; rfl
      rw [hFace]
      cases hQualifies : qualifies v with
      | false =>
          have hFollower : follower cause qualifies v = die :=
            (follower_of_false hQualifies).trans hDie.symm
          exact ensures_pure ⟨.ended hQualifies, by simp [hFollower]⟩
      | true =>
          have hFollower : follower cause qualifies v = die.explode cause :=
            (follower_of_true hQualifies).trans (by rw [hDie])
          refine ih.bind_pure fun values others hOthers => ?_
          refine ⟨.goesOn hQualifies hOthers.1, ?_⟩
          simp [hOthers.2, hFollower]

theorem ensures_step (die : Die) :
    Ensures sides.Asks (step cause sides qualifies die : Rolling σ Outcome)
      (Replaces cause qualifies die) := by
  unfold step Replaces
  cases hAsks : die.isKept && qualifies die.face with
  | false => exact ensures_pure ⟨rfl, rfl⟩
  | true =>
      refine (ensures_chain limit).bind_pure fun values others hOthers => ?_
      exact ⟨hOthers.1, by rw [hOthers.2]⟩

end Explosion

/-! ## Rerolls -/

namespace Reroll

/-- The die is thrown again, as often as there are values, if it is in the
total and asks for it. Only where the reroll is to `recurse` may a value ask
for another throw. -/
def Replaces (cause : Modifier) (qualifies : Value → Bool) (recurse : Bool)
    (die : Die) (values : List Value) (outcome : Outcome) : Prop :=
  if die.isKept && qualifies die.face then
    Ran (fun v => recurse && qualifies v) limit values outcome.finished ∧
      outcome.rolls = [values.foldl (fun die v => die.change cause v) die]
  else values = [] ∧ outcome = ⟨[die], true⟩

variable {cause : Modifier} {sides : Sides} {qualifies : Value → Bool}

theorem ensures_chain (budget : Nat) (die : Die) :
    Ensures sides.Asks
      (chain cause sides qualifies budget die : Rolling σ Outcome)
      fun values outcome => Ran qualifies budget values outcome.finished ∧
        outcome.rolls = [values.foldl (fun die v => die.change cause v) die] := by
  induction budget generalizing die with
  | zero => exact ensures_pure ⟨.givenUp, rfl⟩
  | succ budget ih =>
      refine (ensures_throwDie ⟨rfl, rfl⟩).bind ?_
      rintro _ _ ⟨v, rfl, rfl⟩
      have hFace : (die.change cause (Die.ofFace v).face).face = v := rfl
      dsimp only
      rw [hFace]
      cases hQualifies : qualifies v with
      | false => exact ensures_pure ⟨.ended hQualifies, rfl⟩
      | true =>
          refine (ih _).mono fun values outcome hMore => ?_
          exact ⟨.goesOn hQualifies hMore.1, hMore.2⟩

theorem ensures_once (die : Die) :
    Ensures sides.Asks (once cause sides die : Rolling σ Outcome)
      fun values outcome => Ran (fun _ => false) limit values outcome.finished ∧
        outcome.rolls = [values.foldl (fun die v => die.change cause v) die] := by
  refine (ensures_throwDie ⟨rfl, rfl⟩).bind ?_
  rintro _ _ ⟨v, rfl, rfl⟩
  exact ensures_pure ⟨.ended rfl, rfl⟩

theorem ensures_step (recurse : Bool) (die : Die) :
    Ensures sides.Asks
      (step cause sides qualifies recurse die : Rolling σ Outcome)
      (Replaces cause qualifies recurse die) := by
  unfold step Replaces
  cases hAsks : die.isKept && qualifies die.face with
  | false => exact ensures_pure ⟨rfl, rfl⟩
  | true =>
      cases recurse with
      | false => exact ensures_once die
      | true => exact ensures_chain limit die

end Reroll

/-! ## Modifiers -/

namespace Modifier

/-- What becomes of a die to which the modifier is applied, if these values are
thrown for it. -/
def Replaces (sides : Sides) (m : Modifier) (die : Die) (values : List Value)
    (outcome : Outcome) : Prop :=
  match m with
  | keep _ _ | drop _ _ =>
    values = [] ∧ (outcome = ⟨[die], true⟩ ∨
      die.isKept = true ∧ outcome = ⟨[{ die with droppedBy := some m }], true⟩)
  | atLeast bound =>
    values = [] ∧ outcome = ⟨[if die.isKept && die.counted < bound
      then die.clamp m bound else die], true⟩
  | atMost bound =>
    values = [] ∧ outcome = ⟨[if die.isKept && bound < die.counted
      then die.clamp m bound else die], true⟩
  | explode condition =>
    Explosion.Replaces m (Condition.acceptsOr sides.maxFace condition) die
      values outcome
  | reroll condition recurse =>
    Reroll.Replaces m (Condition.acceptsOr sides.minFace condition) recurse die
      values outcome

/-- Whether the modifier keeps or drops dice by their rank. -/
def isSelection : Modifier → Bool
  | keep _ _ => true
  | drop _ _ => true
  | _ => false

/-- What a modifier can do to a die, one case for each. A die that is let alone
may be out of the total, or not be one that the modifier is about. -/
inductive Effect (sides : Sides) (die : Die) :
    Modifier → List Value → Outcome → Prop
  | untouched {m : Modifier} : Effect sides die m [] ⟨[die], true⟩
  | dropped {m : Modifier} (hKind : m.isSelection = true)
      (hKept : die.isKept = true) :
      Effect sides die m [] ⟨[{ die with droppedBy := some m }], true⟩
  | raised {bound : Value} (hKept : die.isKept = true)
      (hBelow : die.counted < bound) :
      Effect sides die (atLeast bound) []
        ⟨[die.clamp (atLeast bound) bound], true⟩
  | lowered {bound : Value} (hKept : die.isKept = true)
      (hAbove : bound < die.counted) :
      Effect sides die (atMost bound) []
        ⟨[die.clamp (atMost bound) bound], true⟩
  | exploded {condition : Option Condition} {values : List Value}
      {outcome : Outcome} (hKept : die.isKept = true)
      (hAsks : Condition.acceptsOr sides.maxFace condition die.face = true)
      (hRan : Ran (Condition.acceptsOr sides.maxFace condition) limit values
        outcome.finished)
      (hRolls : outcome.rolls = die.explode (explode condition) ::
        values.map (Explosion.follower (explode condition)
          (Condition.acceptsOr sides.maxFace condition))) :
      Effect sides die (explode condition) values outcome
  | rerolled {condition : Option Condition} {recurse : Bool}
      {values : List Value} {outcome : Outcome} (hKept : die.isKept = true)
      (hAsks : Condition.acceptsOr sides.minFace condition die.face = true)
      (hRan : Ran (fun v => recurse &&
        Condition.acceptsOr sides.minFace condition v) limit values
        outcome.finished)
      (hRolls : outcome.rolls =
        [values.foldl (fun die v => die.change (reroll condition recurse) v)
          die]) :
      Effect sides die (reroll condition recurse) values outcome

/-- A die is replaced in one of these ways. -/
theorem Replaces.effect {sides : Sides} {m : Modifier} {die : Die}
    {values : List Value} {outcome : Outcome}
    (h : m.Replaces sides die values outcome) :
    Effect sides die m values outcome := by
  cases m with
  | keep _ _ | drop _ _ =>
      obtain ⟨rfl, rfl | ⟨hKept, rfl⟩⟩ := h
      · exact .untouched
      · exact .dropped rfl hKept
  | atLeast bound =>
      obtain ⟨rfl, rfl⟩ := h
      by_cases hLimited : (die.isKept && die.counted < bound) = true
      · rw [if_pos hLimited]
        obtain ⟨hKept, hBelow⟩ := Bool.and_eq_true_iff.1 hLimited
        exact .raised hKept (of_decide_eq_true hBelow)
      · rw [if_neg hLimited]
        exact .untouched
  | atMost bound =>
      obtain ⟨rfl, rfl⟩ := h
      by_cases hLimited : (die.isKept && bound < die.counted) = true
      · rw [if_pos hLimited]
        obtain ⟨hKept, hAbove⟩ := Bool.and_eq_true_iff.1 hLimited
        exact .lowered hKept (of_decide_eq_true hAbove)
      · rw [if_neg hLimited]
        exact .untouched
  | explode condition =>
      simp only [Modifier.Replaces, Explosion.Replaces] at h
      split at h
      · next hThrown =>
        obtain ⟨hKept, hAsks⟩ := Bool.and_eq_true_iff.1 hThrown
        exact .exploded hKept hAsks h.1 h.2
      · obtain ⟨rfl, rfl⟩ := h
        exact .untouched
  | reroll condition recurse =>
      simp only [Modifier.Replaces, Reroll.Replaces] at h
      split at h
      · next hThrown =>
        obtain ⟨hKept, hAsks⟩ := Bool.and_eq_true_iff.1 hThrown
        exact .rerolled hKept hAsks h.1 h.2
      · obtain ⟨rfl, rfl⟩ := h
        exact .untouched

/-- Whether every face would ask for another throw. -/
def isEndless (sides : Sides) : Modifier → Bool
  | explode condition =>
    sides.faces.all (Condition.acceptsOr sides.maxFace condition)
  | reroll condition recurse =>
    recurse && sides.faces.all (Condition.acceptsOr sides.minFace condition)
  | _ => false

/-- What is on the table when a chain has been given up. -/
def remainder (m : Modifier) (rolls : List Die) : List Die :=
  match m with
  | explode _ => []
  | _ => rolls

/-- What applying a modifier to a set comes to, if these values are thrown. -/
inductive Applied (m : Modifier) (set : Rolled) :
    List Value → Rolled × Option Dice.Error → Prop
  | refused (h : m.isEndless set.dice.sides = true) :
      Applied m set [] (set, some (.infiniteRolls set.dice))
  | finished {values : List Value} {rolls : List Die}
      (h : m.isEndless set.dice.sides = false)
      (hWalked : Walked (m.Replaces set.dice.sides) set.rolls values
        ⟨rolls, true⟩) :
      Applied m set values ({ set with rolls }, none)
  | givenUp {values : List Value} {rolls : List Die}
      (h : m.isEndless set.dice.sides = false)
      (hWalked : Walked (m.Replaces set.dice.sides) set.rolls values
        ⟨rolls, false⟩) :
      Applied m set values
        ({ set with rolls := m.remainder rolls }, some (.rollLimit set.dice))

theorem Applied.dice_eq {m : Modifier} {set set' : Rolled} {values : List Value}
    {failure : Option Dice.Error} (h : m.Applied set values (set', failure)) :
    set'.dice = set.dice := by
  cases h with
  | refused | finished | givenUp => rfl

/-- What a modifier keeps of a die and of those that take its place, it keeps of
a set, be it finished with or not. -/
theorem Applied.forall_mem {m : Modifier} {set set' : Rolled}
    {values : List Value} {failure : Option Dice.Error} {Q : Die → Prop}
    (hDie : ∀ die values outcome,
      m.Replaces set.dice.sides die values outcome → Q die →
        ∀ die' ∈ outcome.rolls, Q die')
    (h : m.Applied set values (set', failure)) (hSet : ∀ die ∈ set.rolls, Q die) :
    ∀ die ∈ set'.rolls, Q die := by
  cases h with
  | refused => exact hSet
  | finished _ hWalked => exact hWalked.forall_mem hDie hSet
  | givenUp _ hWalked =>
      have hLeft := hWalked.forall_mem hDie hSet
      cases m with
      | explode condition => exact List.forall_mem_nil _
      | keep _ _ | drop _ _ | atLeast _ | atMost _ | reroll _ _ => exact hLeft

/-! ### Modifiers that throw nothing -/

variable {m : Modifier} {set : Rolled}

/-- A modifier that throws nothing replaces each die by one. -/
theorem applied_of_forall₂ {rolls : List Die}
    (hEndless : m.isEndless set.dice.sides = false)
    (h : List.Forall₂
      (fun die die' => m.Replaces set.dice.sides die [] ⟨[die'], true⟩)
      set.rolls rolls) :
    m.Applied set [] ({ set with rolls }, none) :=
  .finished hEndless (.of_forall₂ h)

/-- A limit makes of each die what a function makes of it. -/
theorem applied_map {f : Die → Die}
    (hEndless : m.isEndless set.dice.sides = false)
    (h : ∀ die, m.Replaces set.dice.sides die [] ⟨[f die], true⟩) :
    m.Applied set [] ({ set with rolls := set.rolls.map f }, none) := by
  apply applied_of_forall₂ hEndless
  rw [List.forall₂_map_right_iff, List.forall₂_same]
  exact fun die _ => h die

/-- A selection drops dice that are in the total. -/
theorem applied_dropped {positions : List Nat}
    (hEndless : m.isEndless set.dice.sides = false)
    (h : ∀ die outcome, (outcome = ⟨[die], true⟩ ∨ die.isKept = true ∧
        outcome = ⟨[{ die with droppedBy := some m }], true⟩) →
      m.Replaces set.dice.sides die [] outcome)
    (hKept : Selection.AreKept positions set.rolls) :
    m.Applied set []
      ({ set with rolls := Selection.dropped m positions set.rolls }, none) := by
  refine applied_of_forall₂ hEndless ?_
  refine (Selection.forall₂_dropped hKept).imp fun die die' hDie => h die _ ?_
  exact hDie.imp (fun hSame => by rw [hSame])
    fun ⟨hKept, hDropped⟩ => ⟨hKept, by rw [hDropped]⟩

/-! ### Modifiers that throw dice -/

theorem ensures_apply_explode (condition : Option Condition) (set : Rolled) :
    Ensures set.dice.sides.Asks
      (Explosion.apply (.explode condition) condition set :
        Rolling σ (Rolled × Option Dice.Error))
      ((explode condition).Applied set) := by
  unfold Explosion.apply
  cases hEndless : (explode condition).isEndless set.dice.sides with
  | true =>
      rw [isEndless] at hEndless
      simp only [hEndless, if_true]
      exact ensures_pure (.refused hEndless)
  | false =>
      have hAll := hEndless
      rw [isEndless] at hAll
      simp only [hAll, Bool.false_eq_true, if_false]
      refine (ensures_walk Explosion.ensures_step set.rolls).bind
        fun values outcome hWalked => ?_
      obtain ⟨rolls, finished⟩ := outcome
      cases finished with
      | false =>
          refine ensures_pure ?_
          rw [List.append_nil]
          exact .givenUp hEndless hWalked
      | true =>
          refine ensures_pure ?_
          rw [List.append_nil]
          exact .finished hEndless hWalked

theorem ensures_apply_reroll (condition : Option Condition) (recurse : Bool)
    (set : Rolled) :
    Ensures set.dice.sides.Asks
      (Reroll.apply (.reroll condition recurse) condition recurse set :
        Rolling σ (Rolled × Option Dice.Error))
      ((reroll condition recurse).Applied set) := by
  unfold Reroll.apply
  cases hEndless : (reroll condition recurse).isEndless set.dice.sides with
  | true =>
      rw [isEndless] at hEndless
      simp only [hEndless, if_true]
      exact ensures_pure (.refused hEndless)
  | false =>
      have hAll := hEndless
      rw [isEndless] at hAll
      simp only [hAll, Bool.false_eq_true, if_false]
      refine (ensures_walk (Reroll.ensures_step recurse) set.rolls).bind_pure
        fun values outcome hWalked => ?_
      obtain ⟨rolls, finished⟩ := outcome
      cases finished with
      | false => exact .givenUp hEndless hWalked
      | true => exact .finished hEndless hWalked

/-- Applying a modifier comes to no more than that, with every roller. -/
theorem ensures_apply (m : Modifier) (set : Rolled) :
    Ensures set.dice.sides.Asks
      (m.apply set : Rolling σ (Rolled × Option Dice.Error))
      (m.Applied set) := by
  cases m with
  | keep extreme n =>
      refine (ensures_ofExcept (Selection.keep_eq_ok _ extreme n set.rolls)).bind ?_
      rintro _ _ ⟨rfl, rfl⟩
      exact ensures_pure (applied_dropped rfl (fun die outcome h => ⟨rfl, h⟩)
        (Selection.areKept_drop extreme n.toNat set.rolls))
  | drop extreme n =>
      refine (ensures_ofExcept (Selection.drop_eq_ok _ extreme n set.rolls)).bind ?_
      rintro _ _ ⟨rfl, rfl⟩
      exact ensures_pure (applied_dropped rfl (fun die outcome h => ⟨rfl, h⟩)
        (Selection.areKept_take extreme n.toNat set.rolls))
  | atLeast bound =>
      exact ensures_pure (applied_map rfl fun die => ⟨rfl, rfl⟩)
  | atMost bound =>
      exact ensures_pure (applied_map rfl fun die => ⟨rfl, rfl⟩)
  | explode condition => exact ensures_apply_explode condition set
  | reroll condition recurse => exact ensures_apply_reroll condition recurse set

end Modifier

/-! ## Lists of modifiers -/

namespace Rolled

/-- What applying modifiers one after the other comes to, if these values are
thrown: the set that is left, or the error of the first that fails. -/
inductive Modified :
    Rolled → List Modifier → List Value → Except Dice.Error Rolled → Prop
  | done (set : Rolled) : Modified set [] [] (.ok set)
  | failed {set set' : Rolled} {m : Modifier} {ms : List Modifier}
      {values : List Value} {err : Dice.Error}
      (h : m.Applied set values (set', some err)) :
      Modified set (m :: ms) values (.error err)
  | applied {set set' : Rolled} {m : Modifier} {ms : List Modifier}
      {values more : List Value} {result : Except Dice.Error Rolled}
      (h : m.Applied set values (set', none))
      (hRest : Modified set' ms more result) :
      Modified set (m :: ms) (values ++ more) result

/-- What each of the modifiers keeps of a set it is finished with, all of them
keep. -/
theorem Modified.preserves {set : Rolled} {ms : List Modifier}
    {values : List Value} {result : Except Dice.Error Rolled} {Q : Rolled → Prop}
    (hStep : ∀ m ∈ ms, ∀ set values set', m.Applied set values (set', none) →
      Q set → Q set')
    (h : Modified set ms values result) (hSet : Q set) :
    ∀ set', result = .ok set' → Q set' := by
  induction h with
  | done set =>
      rintro _ ⟨⟩
      exact hSet
  | failed h => exact nofun
  | applied h _ ih =>
      obtain ⟨hFirst, hRest⟩ := List.forall_mem_cons.1 hStep
      exact ih hRest (hFirst _ _ _ h hSet)

/-- The set that is left is one of the same dice. -/
theorem Modified.dice_eq {set : Rolled} {ms : List Modifier}
    {values : List Value} {result : Except Dice.Error Rolled}
    (h : Modified set ms values result) :
    ∀ set', result = .ok set' → set'.dice = set.dice :=
  h.preserves (Q := fun set' => set'.dice = set.dice)
    (fun _ _ _ _ _ hApplied hSame => hApplied.dice_eq.trans hSame) rfl

/-- What each of the modifiers keeps of a die and of those that take its place,
all of them keep of a set. -/
theorem Modified.forall_mem {set : Rolled} {ms : List Modifier}
    {values : List Value} {result : Except Dice.Error Rolled} {Q : Die → Prop}
    (hDie : ∀ m ∈ ms, ∀ die values outcome,
      m.Replaces set.dice.sides die values outcome → Q die →
        ∀ die' ∈ outcome.rolls, Q die')
    (h : Modified set ms values result) (hSet : ∀ die ∈ set.rolls, Q die) :
    ∀ set', result = .ok set' → ∀ die ∈ set'.rolls, Q die := by
  intro set' hResult
  -- The modifiers are about dice with these sides, so the dice are kept as well.
  have hKept := h.preserves
    (Q := fun set' => set'.dice = set.dice ∧ ∀ die ∈ set'.rolls, Q die)
    (fun m hMem before _ after hApplied hBefore => by
      refine ⟨hApplied.dice_eq.trans hBefore.1, ?_⟩
      have hFirst := hDie m hMem
      rw [← hBefore.1] at hFirst
      exact hApplied.forall_mem hFirst hBefore.2)
    ⟨rfl, hSet⟩
  exact (hKept set' hResult).2

/-- Applying modifiers comes to no more than that, with every roller. -/
theorem ensures_modify (set : Rolled) (ms : List Modifier) :
    Ensures set.dice.sides.Asks
      (set.modify ms : ExceptT Dice.Error (Rolling σ) Rolled).run
      (Modified set ms) := by
  induction ms generalizing set with
  | nil => exact ensures_pure (.done set)
  | cons m ms ih =>
      rw [modify]
      refine (m.ensures_apply set).run_lift_bind ?_
      rintro values ⟨set', failure⟩ hApplied
      cases failure with
      | some err =>
          refine ensures_pure ?_
          rw [List.append_nil]
          exact .failed hApplied
      | none =>
          have hMore := ih set'
          rw [hApplied.dice_eq] at hMore
          exact hMore.mono fun more result hRest => .applied hApplied hRest

/-! ### Runs of a list -/

section Runs

variable {set : Rolled} {m : Modifier} {ms : List Modifier} {roller : Roller σ}
  {table last : Table σ}

/-- A list succeeds if its first modifier does, and the others from there on. -/
theorem run_modify_cons_eq_ok_iff {set' : Rolled} :
    (set.modify (m :: ms)).run roller table = (.ok (.ok set'), last) ↔
      ∃ next middle, m.apply set roller table = (.ok (next, none), middle) ∧
        (next.modify ms).run roller middle = (.ok (.ok set'), last) := by
  rw [modify, ExceptT.run_bind_lift, bind_eq_ok_iff]
  constructor
  · rintro ⟨⟨next, _ | err⟩, middle, hFirst, hRest⟩
    · exact ⟨next, middle, hFirst, hRest⟩
    · cases hRest
  · rintro ⟨next, middle, hFirst, hRest⟩
    exact ⟨(next, none), middle, hFirst, hRest⟩

/-- A list fails with its first modifier, or later on. -/
theorem run_modify_cons_eq_error_iff {err : Dice.Error} :
    (set.modify (m :: ms)).run roller table = (.ok (.error err), last) ↔
      (∃ set', m.apply set roller table = (.ok (set', some err), last)) ∨
        ∃ next middle, m.apply set roller table = (.ok (next, none), middle) ∧
          (next.modify ms).run roller middle = (.ok (.error err), last) := by
  rw [modify, ExceptT.run_bind_lift, bind_eq_ok_iff]
  constructor
  · rintro ⟨⟨next, _ | err'⟩, middle, hFirst, hRest⟩
    · exact .inr ⟨next, middle, hFirst, hRest⟩
    · cases hRest
      exact .inl ⟨next, hFirst⟩
  · rintro (⟨set', hFails⟩ | ⟨next, middle, hFirst, hRest⟩)
    · exact ⟨(set', some err), last, hFails, rfl⟩
    · exact ⟨(next, none), middle, hFirst, hRest⟩

end Runs

end Rolled

end DiceFormula
