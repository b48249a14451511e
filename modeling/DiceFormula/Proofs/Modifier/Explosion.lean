import DiceFormula.Proofs.Modifier.Throws

/-!
# What exploding comes to

Told without a walk and without a budget: every die of a set has a chain of throws
of its own, which is empty unless the die is in the total and asks for it, and the
set that is left is made of the dice and their chains, one after the other. The
roller gives the chains in the order of the dice.

## Main results

* `decides_apply` — which values decide on an explosion.
* `run_apply_eq_ok_iff`, `run_apply_eq_rollLimit_iff` — explosions that end, and
  explosions that are given up, chain by chain.
* `explode_chain_by_chain` — all of what exploding can come to.
-/

namespace DiceFormula.Explosion

open Chain Rolling

variable {σ : Type} {cause : Modifier} {sides : Sides} {qualifies : Value → Bool}

/-! ## Decisions -/

/-- A die in front of those of a chain. -/
theorem decides_cons {x : Rolling σ Outcome} {ran : List Value → Bool → Prop}
    {result : List Value → List Die} (die : Die)
    (hx : Decides sides x fun values outcome =>
      ran values outcome.finished ∧ outcome.rolls = result values) :
    Decides sides (do
        let others ← x
        return ⟨die :: others.rolls, others.finished⟩ : Rolling σ Outcome)
      fun values outcome =>
        ran values outcome.finished ∧ outcome.rolls = die :: result values := by
  refine hx.bind_pure.congr ?_
  rintro values ⟨rolls, finished⟩
  constructor
  · rintro ⟨others, ⟨hRan, hRolls⟩, ⟨⟩⟩
    exact ⟨hRan, by rw [hRolls]⟩
  · rintro ⟨hRan, rfl⟩
    exact ⟨⟨result values, finished⟩, ⟨hRan, rfl⟩, rfl⟩

theorem decides_chain (budget : Nat) :
    Decides sides (chain cause sides qualifies budget : Rolling σ Outcome)
      fun values outcome => Ran qualifies budget values outcome.finished ∧
        outcome.rolls = values.map (follower cause qualifies) := by
  induction budget with
  | zero => exact decides_givenUp [] rfl
  | succ budget ih =>
      refine decides_thrown fun v => ?_
      rw [Die.add_of_isInitial rfl cause, ofExcept_ok_bind]
      generalize hDie : ({ Die.ofFace v with addedBy := some cause } : Die) = die
      have hFace : die.face = v := by rw [← hDie]; rfl
      rw [hFace]
      cases hQualifies : qualifies v with
      | false =>
          refine (decides_outcome [die] true).congr fun more outcome => ?_
          refine and_congr_right fun hEnded => ?_
          rw [hEnded.1, List.map_cons, follower_of_false hQualifies, hDie,
            List.map_nil]
      | true =>
          refine (decides_cons (die.explode cause) ih).congr fun more outcome => ?_
          rw [List.map_cons, follower_of_true hQualifies, hDie]
          exact Iff.rfl

theorem decides_step (die : Die) :
    Decides sides (step cause sides qualifies die : Rolling σ Outcome)
      (Replaces cause qualifies die) := by
  unfold step Replaces
  cases hAsks : die.isKept && qualifies die.face with
  | false => exact decides_pure _
  | true => exact decides_cons (die.explode cause) (decides_chain limit)

/-- What decides on an explosion are the values its walk is given. -/
theorem decides_apply (condition : Option Condition) (set : Rolled) :
    Decides set.dice.sides
      ((Modifier.explode condition).apply set :
        Rolling σ (Rolled × Option Dice.Error))
      ((Modifier.explode condition).Applied set) := by
  rw [Modifier.apply]
  unfold Explosion.apply
  cases hEndless : (Modifier.explode condition).isEndless set.dice.sides with
  | true =>
      have hAll := hEndless
      rw [Modifier.isEndless] at hAll
      simp only [hAll, if_true]
      exact (decides_pure _).congr fun values result =>
        (Modifier.applied_iff_of_endless hEndless).symm
  | false =>
      have hAll := hEndless
      rw [Modifier.isEndless] at hAll
      simp only [hAll, Bool.false_eq_true, if_false]
      simp only [← apply_ite pure]
      exact (decides_walk decides_step set.rolls).bind_pure.congr
        fun values result => (Modifier.applied_iff_of_not_endless hEndless).symm

/-! ## Dice and their chains -/

/-- The throws for a die: a chain that ends within the limit if the die is in the
total and asks for it, and none otherwise. -/
def Throws (qualifies : Value → Bool) (die : Die) (throws : List Value) : Prop :=
  if die.isKept && qualifies die.face then
    IsComplete qualifies throws ∧ throws.length ≤ 100
  else throws = []

/-- The dice that follow an exploding one. Each was added by the modifier, and all
but the last have exploded themselves. -/
def followers (cause : Modifier) : List Value → List Die
  | [] => []
  | [v] => [{ Die.ofFace v with addedBy := some cause }]
  | v :: more =>
    { Die.ofFace v with addedBy := some cause, explodedBy := some cause } ::
      followers cause more

/-- A die and the dice that follow it. It has exploded if there are any. -/
def grown (cause : Modifier) (die : Die) : List Value → List Die
  | [] => [die]
  | throws => die.explode cause :: followers cause throws

theorem map_follower {throws : List Value} (h : IsComplete qualifies throws) :
    throws.map (follower cause qualifies) = followers cause throws := by
  induction throws with
  | nil => rfl
  | cons v more ih =>
      rw [isComplete_cons_iff] at h
      cases hQualifies : qualifies v with
      | false =>
          rw [hQualifies, if_neg Bool.false_ne_true] at h
          subst h
          simp [follower, followers, hQualifies, Die.ofFace]
      | true =>
          rw [hQualifies, if_pos rfl] at h
          cases more with
          | nil => exact absurd h.length_pos (by decide)
          | cons w more =>
              rw [List.map_cons, ih h]
              simp [follower, followers, hQualifies]

theorem grown_of_pos {die : Die} {throws : List Value} (h : 1 ≤ throws.length) :
    grown cause die throws = die.explode cause :: followers cause throws := by
  cases throws with
  | nil => cases h
  | cons v more => rfl

/-- A die whose chain ends. -/
theorem replaces_true_iff (die : Die) (throws : List Value) (dice : List Die) :
    Replaces cause qualifies die throws ⟨dice, true⟩ ↔
      Throws qualifies die throws ∧ dice = grown cause die throws := by
  unfold Replaces Throws
  cases hAsks : die.isKept && qualifies die.face with
  | false =>
      simp only [Bool.false_eq_true, if_false, Outcome.mk.injEq, and_true]
      refine and_congr_right fun hNone => ?_
      rw [hNone, grown]
  | true =>
      simp only [if_true, ran_true_iff, limit]
      refine and_congr_right fun hChain => ?_
      rw [map_follower hChain.1, grown_of_pos hChain.1.length_pos]

/-- A die whose chain is given up. -/
theorem replaces_false_iff (die : Die) (throws : List Value) (dice : List Die) :
    Replaces cause qualifies die throws ⟨dice, false⟩ ↔
      IsGivenUp qualifies die throws ∧
        dice = die.explode cause :: throws.map (follower cause qualifies) := by
  unfold Replaces IsGivenUp
  cases hAsks : die.isKept && qualifies die.face with
  | false =>
      simp
  | true =>
      simp only [if_true, ran_false_iff, limit, true_and]

/-- A chain that ends has between one throw and a hundred. -/
theorem Throws.length {die : Die} {throws : List Value}
    (h : Throws qualifies die throws) :
    if die.isKept && qualifies die.face then
      1 ≤ throws.length ∧ throws.length ≤ 100
    else throws = [] := by
  unfold Throws at h
  cases hAsks : die.isKept && qualifies die.face with
  | false =>
      rw [hAsks] at h
      exact h
  | true =>
      rw [hAsks] at h
      exact ⟨h.1.length_pos, h.2⟩

theorem length_followers (cause : Modifier) (throws : List Value) :
    (followers cause throws).length = throws.length := by
  fun_induction followers cause throws with
  | case1 => rfl
  | case2 => rfl
  | case3 v more _ ih => rw [List.length_cons, List.length_cons, ih]

theorem length_grown (cause : Modifier) (die : Die) (throws : List Value) :
    (grown cause die throws).length = throws.length + 1 := by
  cases throws with
  | nil => rfl
  | cons v more => rw [grown, List.length_cons, length_followers]; exact nofun

/-- A set grows by the dice that are thrown. -/
theorem length_flatten_grown {rolls : List Die} {chains : List (List Value)}
    (h : List.Forall₂ (Throws qualifies) rolls chains) :
    (List.zipWith (grown cause) rolls chains).flatten.length =
      rolls.length + chains.flatten.length := by
  induction h with
  | nil => rfl
  | cons _ _ ih =>
      rw [List.zipWith_cons_cons, List.flatten_cons, List.flatten_cons,
        List.length_append, List.length_append, List.length_cons, length_grown, ih]
      omega

/-! ## Explosions chain by chain -/

section Runs

variable {condition : Option Condition} {set set' : Rolled} {dice : Dice}
  {roller : Roller σ} {table last : Table σ}

theorem isEndless_iff : (Modifier.explode condition).isEndless sides = true ↔
    sides.EveryFace (Condition.acceptsOr sides.maxFace condition) :=
  Sides.all_faces_iff

theorem isEndless_eq_false_iff :
    (Modifier.explode condition).isEndless sides = false ↔
      ¬ sides.EveryFace (Condition.acceptsOr sides.maxFace condition) := by
  rw [← isEndless_iff, Bool.not_eq_true]

/-- An explosion is refused if every face asks for another throw. -/
theorem run_apply_eq_infiniteRolls_iff :
    (Modifier.explode condition).apply set roller table =
        (.ok (set', some (.infiniteRolls dice)), last) ↔
      set.dice.sides.EveryFace
          (Condition.acceptsOr set.dice.sides.maxFace condition) ∧
        set' = set ∧ dice = set.dice ∧ last = table :=
  (Modifier.run_apply_eq_infiniteRolls_iff (decides_apply condition set)).trans
    (and_congr_left' isEndless_iff)

/-- An explosion that ends: every chain ends within the limit. -/
theorem run_apply_eq_ok_iff :
    (Modifier.explode condition).apply set roller table =
        (.ok (set', none), last) ↔
      ¬ set.dice.sides.EveryFace
          (Condition.acceptsOr set.dice.sides.maxFace condition) ∧
        ∃ chains, List.Forall₂
            (Throws (Condition.acceptsOr set.dice.sides.maxFace condition))
            set.rolls chains ∧
          table.Drawn roller set.dice.sides chains.flatten last ∧
          set' = { set with
            rolls := (List.zipWith (grown (.explode condition)) set.rolls
              chains).flatten } :=
  (Modifier.run_apply_eq_ok_iff (decides_apply condition set)
    replaces_true_iff).trans (and_congr_left' isEndless_eq_false_iff)

/-- An explosion that is given up: the chains of the first dice end within the
limit, and then a die is followed by a hundred throws that ask for another one. -/
theorem run_apply_eq_rollLimit_iff :
    (Modifier.explode condition).apply set roller table =
        (.ok (set', some (.rollLimit dice)), last) ↔
      ¬ set.dice.sides.EveryFace
          (Condition.acceptsOr set.dice.sides.maxFace condition) ∧
        ∃ before die after chains throws, set.rolls = before ++ die :: after ∧
          List.Forall₂
            (Throws (Condition.acceptsOr set.dice.sides.maxFace condition))
            before chains ∧
          IsGivenUp (Condition.acceptsOr set.dice.sides.maxFace condition) die
            throws ∧
          table.Drawn roller set.dice.sides (chains.flatten ++ throws) last ∧
          set' = { set with rolls := [] } ∧ dice = set.dice :=
  (Modifier.run_apply_eq_rollLimit_iff (decides_apply condition set)
    replaces_true_iff replaces_false_iff).trans
      (and_congr_left' isEndless_eq_false_iff)

/-- What exploding comes to, with any roller. It is refused if every face asks for
another throw. If not, the dice are gone through in their order: those that are out
of the total or do not ask for a throw stay as they are, and behind each of the
others come the dice of a chain, up to the first that does not ask for another one.
The first chain that has not ended after a hundred throws ends it all. -/
theorem explode_chain_by_chain (condition : Option Condition) (set : Rolled)
    (roller : Roller σ) (table last : Table σ) :
    let sides := set.dice.sides
    let qualifies := Condition.acceptsOr sides.maxFace condition
    let run := (Modifier.explode condition).apply set roller table
    (∀ set' dice, run = (.ok (set', some (.infiniteRolls dice)), last) ↔
      sides.EveryFace qualifies ∧ set' = set ∧ dice = set.dice ∧ last = table) ∧
    (∀ set', run = (.ok (set', none), last) ↔
      ¬ sides.EveryFace qualifies ∧
        ∃ chains, List.Forall₂ (Throws qualifies) set.rolls chains ∧
          table.Drawn roller sides chains.flatten last ∧
          set' = { set with
            rolls := (List.zipWith (grown (.explode condition)) set.rolls
              chains).flatten }) ∧
    (∀ set' dice, run = (.ok (set', some (.rollLimit dice)), last) ↔
      ¬ sides.EveryFace qualifies ∧
        ∃ before die after chains throws, set.rolls = before ++ die :: after ∧
          List.Forall₂ (Throws qualifies) before chains ∧
          IsGivenUp qualifies die throws ∧
          table.Drawn roller sides (chains.flatten ++ throws) last ∧
          set' = { set with rolls := [] } ∧ dice = set.dice) ∧
    (∀ set', run = (.ok (set', none), last) →
      ∃ chains : List (List Value), List.Forall₂ (fun die throws =>
          if die.isKept && qualifies die.face then
            1 ≤ throws.length ∧ throws.length ≤ 100
          else throws = []) set.rolls chains ∧
        set'.rolls.length = set.rolls.length + chains.flatten.length ∧
        last.draws.size = table.draws.size + chains.flatten.length) ∧
    (∀ set' err, run = (.ok (set', some err), last) →
      err = .infiniteRolls set.dice ∨ err = .rollLimit set.dice) ∧
    ∀ halt, run = (.error halt, last) →
      roller.draw last.state sides.minFace sides.maxFace = .error halt := by
  refine ⟨fun _ _ => run_apply_eq_infiniteRolls_iff,
    fun _ => run_apply_eq_ok_iff, fun _ _ => run_apply_eq_rollLimit_iff, ?lengths,
    fun _ _ => Modifier.eq_or_eq_of_run_apply (decides_apply condition set),
    fun _ => Modifier.draw_eq_error_of_apply⟩
  case lengths =>
    intro set' hRun
    obtain ⟨-, chains, hChains, hDrawn, rfl⟩ := run_apply_eq_ok_iff.1 hRun
    exact ⟨chains, hChains.imp fun _ _ => Throws.length,
      length_flatten_grown hChains, hDrawn.size_draws⟩

end Runs

end DiceFormula.Explosion
