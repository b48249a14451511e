import DiceFormula.Proofs.Modifier.Throws

/-!
# What rerolling comes to

Told without a walk and without a budget: every die of a set has a chain of throws
of its own, which is empty unless the die is in the total and asks for it. A single
reroll throws such a die once; a recursive one throws it until it does not ask for
another throw. The die stays in its place and shows the last throw of its chain. The
roller gives the chains in the order of the dice.

## Main results

* `decides_apply` — which values decide on a reroll.
* `foldl_change_eq` — what a chain makes of a die.
* `run_apply_eq_ok_iff`, `run_apply_eq_rollLimit_iff` — rerolls that end, and
  rerolls that are given up, chain by chain.
* `reroll_chain_by_chain` — all of what rerolling can come to.
-/

namespace DiceFormula.Reroll

open Chain Rolling

variable {σ : Type} {cause : Modifier} {sides : Sides} {qualifies : Value → Bool}
  {recurse : Bool}

/-! ## Decisions -/

theorem decides_chain (budget : Nat) (die : Die) :
    Decides sides (chain cause sides qualifies budget die : Rolling σ Outcome)
      fun values outcome => Ran qualifies budget values outcome.finished ∧
        outcome.rolls = [values.foldl (fun die v => die.change cause v) die] := by
  induction budget generalizing die with
  | zero => exact decides_givenUp [die] rfl
  | succ budget ih =>
      refine decides_thrown fun v => ?_
      have hFace : (die.change cause (Die.ofFace v).face).face = v := rfl
      dsimp only
      rw [hFace]
      cases qualifies v with
      | false =>
          refine (decides_outcome [die.change cause v] true).congr
            fun more outcome => and_congr_right fun hEnded => ?_
          rw [hEnded.1]
          rfl
      | true => exact ih (die.change cause v)

/-- A single throw is a chain in which no throw asks for another one. -/
theorem decides_once (die : Die) :
    Decides sides (once cause sides die : Rolling σ Outcome)
      fun values outcome => Ran (fun _ => false) limit values outcome.finished ∧
        outcome.rolls = [values.foldl (fun die v => die.change cause v) die] := by
  refine decides_thrown fun v => ?_
  refine (decides_outcome [die.change cause v] true).congr
    fun more outcome => and_congr_right fun hEnded => ?_
  rw [hEnded.1]
  rfl

theorem decides_step (die : Die) :
    Decides sides
      (step cause sides qualifies recurse die : Rolling σ Outcome)
      (Replaces cause qualifies recurse die) := by
  unfold step Replaces
  cases hAsks : die.isKept && qualifies die.face with
  | false => exact decides_pure _
  | true =>
      cases recurse with
      | false => exact decides_once die
      | true => exact decides_chain limit die

/-- What decides on a reroll are the values its walk is given. -/
theorem decides_apply (condition : Option Condition) (recurse : Bool)
    (set : Rolled) :
    Decides set.dice.sides
      ((Modifier.reroll condition recurse).apply set :
        Rolling σ (Rolled × Option Dice.Error))
      ((Modifier.reroll condition recurse).Applied set) := by
  rw [Modifier.apply]
  unfold Reroll.apply
  cases hEndless :
      (Modifier.reroll condition recurse).isEndless set.dice.sides with
  | true =>
      have hAll := hEndless
      rw [Modifier.isEndless] at hAll
      simp only [hAll, if_true]
      exact (decides_pure _).congr fun values result =>
        (Modifier.applied_iff_of_endless hEndless).symm
  | false =>
      have hAll := hEndless
      rw [Modifier.isEndless] at hAll
      simp only [hAll, Bool.false_eq_true, if_false]
      refine (decides_walk decides_step set.rolls).bind_pure.congr
        fun values result => ?_
      rw [Modifier.applied_iff_of_not_endless hEndless]
      refine exists_congr fun outcome => and_congr_right fun _ => ?_
      cases outcome.finished with
      | false => exact Iff.rfl
      | true => exact Iff.rfl

/-! ## Dice and their chains -/

/-- The throws for a die that is in the total and asks for it: one, or a chain that
ends within the limit if the reroll is to `recurse`. There are none for the other
dice. -/
def Throws (recurse : Bool) (qualifies : Value → Bool) (die : Die)
    (throws : List Value) : Prop :=
  if die.isKept && qualifies die.face then
    if recurse then IsComplete qualifies throws ∧ throws.length ≤ 100
    else throws.length = 1
  else throws = []

/-- The die after these throws. It shows the last one and counts for it, and every
throw is logged as a change of the face before. -/
def rethrown (cause : Modifier) (die : Die) (throws : List Value) : Die :=
  { die with
    face := throws.getLastD die.face
    counted := throws.getLastD die.counted
    changes := die.changes ++ List.zipWith
      (fun before after => ⟨before, after, cause⟩) (die.face :: throws) throws }

theorem rethrown_nil (cause : Modifier) (die : Die) :
    rethrown cause die [] = die := by
  simp [rethrown]

/-- What a chain makes of a die. -/
theorem foldl_change_eq (cause : Modifier) (die : Die) (throws : List Value) :
    throws.foldl (fun die v => die.change cause v) die =
      rethrown cause die throws := by
  induction throws generalizing die with
  | nil => exact (rethrown_nil cause die).symm
  | cons v throws ih =>
      rw [List.foldl_cons, ih, rethrown, rethrown, List.getLastD_cons,
        List.getLastD_cons]
      simp only [Die.change, List.zipWith_cons_cons, List.append_assoc,
        List.singleton_append]

/-- A die whose chain ends. -/
theorem replaces_true_iff (die : Die) (throws : List Value) (dice : List Die) :
    Replaces cause qualifies recurse die throws ⟨dice, true⟩ ↔
      Throws recurse qualifies die throws ∧ dice = [rethrown cause die throws] := by
  unfold Replaces Throws
  cases hAsks : die.isKept && qualifies die.face with
  | false =>
      simp only [Bool.false_eq_true, if_false, Outcome.mk.injEq, and_true]
      refine and_congr_right fun hNone => ?_
      rw [hNone, rethrown_nil]
  | true =>
      simp only [if_true, foldl_change_eq, ran_true_iff, limit]
      cases recurse with
      | false =>
          have hOne : IsComplete (fun v => false && qualifies v) throws ∧
              throws.length ≤ 100 ↔ throws.length = 1 := by
            rw [isComplete_iff_length_eq_one fun v => Bool.false_and (qualifies v)]
            exact and_iff_left_of_imp fun hLength => by rw [hLength]; decide
          rw [hOne]
          simp only [Bool.false_eq_true, if_false]
      | true => simp only [Bool.true_and, if_true]

/-- A die whose chain is given up. -/
theorem replaces_false_iff (die : Die) (throws : List Value) (dice : List Die) :
    Replaces cause qualifies recurse die throws ⟨dice, false⟩ ↔
      (recurse = true ∧ IsGivenUp qualifies die throws) ∧
        dice = [rethrown cause die throws] := by
  unfold Replaces IsGivenUp
  cases hAsks : die.isKept && qualifies die.face with
  | false => simp
  | true =>
      simp only [if_true, foldl_change_eq, ran_false_iff, limit, true_and]
      cases recurse with
      | false =>
          -- A single throw does not ask for another one, so it is never given up.
          have hNone : ¬ (throws.length = 100 ∧
              ∀ v ∈ throws, (false && qualifies v) = true) := by
            rintro ⟨hLength, hAll⟩
            cases throws with
            | nil => cases hLength
            | cons v throws => cases hAll v List.mem_cons_self
          simp only [hNone, Bool.false_eq_true, false_and]
      | true => simp only [Bool.true_and, true_and]

/-! ## Sets and their chains -/

variable {die : Die} {throws : List Value} {rolls : List Die}
  {chains : List (List Value)}

/-- A die that is out of the total or does not ask for a throw stays as it is. -/
theorem Throws.rethrown_eq (h : Throws recurse qualifies die throws)
    (hAsks : (die.isKept && qualifies die.face) = false) :
    rethrown cause die throws = die := by
  rw [Throws, hAsks, if_neg Bool.false_ne_true] at h
  rw [h, rethrown_nil]

/-- A die that is in the total does not ask for a throw once a chain has ended. -/
theorem Throws.settled (h : Throws true qualifies die throws)
    (hKept : (rethrown cause die throws).isKept = true) :
    qualifies (rethrown cause die throws).face = false := by
  have hDie : die.isKept = true := hKept
  cases hAsks : die.isKept && qualifies die.face with
  | false =>
      rw [h.rethrown_eq hAsks]
      rwa [hDie, Bool.true_and] at hAsks
  | true =>
      rw [Throws, hAsks, if_pos rfl, if_pos rfl] at h
      obtain ⟨⟨front, v, rfl, -, hLast⟩, -⟩ := h
      rw [rethrown, List.getLastD_concat]
      exact hLast

/-- What holds of each die and what its chain makes of it. -/
theorem forall₂_rethrown {R : Die → Die → Prop}
    (h : List.Forall₂ (fun die throws => R die (rethrown cause die throws)) rolls
      chains) :
    List.Forall₂ R rolls (List.zipWith (rethrown cause) rolls chains) := by
  induction h with
  | nil => exact .nil
  | cons hDie _ ih => exact .cons hDie ih

theorem settled_of_mem (h : List.Forall₂ (Throws true qualifies) rolls chains) :
    ∀ die ∈ List.zipWith (rethrown cause) rolls chains, die.isKept = true →
      qualifies die.face = false := by
  induction h with
  | nil => exact List.forall_mem_nil _
  | cons hDie _ ih => exact List.forall_mem_cons.2 ⟨hDie.settled, ih⟩

/-- Each die takes the place of one. -/
theorem flatten_rethrown (rolls : List Die) (chains : List (List Value)) :
    (List.zipWith (fun die throws => [rethrown cause die throws]) rolls
      chains).flatten = List.zipWith (rethrown cause) rolls chains := by
  induction rolls generalizing chains with
  | nil => rfl
  | cons die rolls ih =>
      cases chains with
      | nil => rfl
      | cons throws chains =>
          rw [List.zipWith_cons_cons, List.flatten_cons, ih]
          rfl

/-! ## Rerolls chain by chain -/

section Runs

variable {condition : Option Condition} {set set' : Rolled} {dice : Dice}
  {roller : Roller σ} {table last : Table σ}

theorem isEndless_iff : (Modifier.reroll condition recurse).isEndless sides = true ↔
    recurse = true ∧
      sides.EveryFace (Condition.acceptsOr sides.minFace condition) := by
  rw [Modifier.isEndless, Bool.and_eq_true, Sides.all_faces_iff]

theorem isEndless_eq_false_iff :
    (Modifier.reroll condition recurse).isEndless sides = false ↔
      ¬ (recurse = true ∧
        sides.EveryFace (Condition.acceptsOr sides.minFace condition)) := by
  rw [← isEndless_iff, Bool.not_eq_true]

/-- A reroll is refused if it is recursive and every face asks for another throw. -/
theorem run_apply_eq_infiniteRolls_iff :
    (Modifier.reroll condition recurse).apply set roller table =
        (.ok (set', some (.infiniteRolls dice)), last) ↔
      (recurse = true ∧ set.dice.sides.EveryFace
          (Condition.acceptsOr set.dice.sides.minFace condition)) ∧
        set' = set ∧ dice = set.dice ∧ last = table :=
  (Modifier.run_apply_eq_infiniteRolls_iff
    (decides_apply condition recurse set)).trans (and_congr_left' isEndless_iff)

/-- A reroll that ends: every chain ends within the limit. -/
theorem run_apply_eq_ok_iff :
    (Modifier.reroll condition recurse).apply set roller table =
        (.ok (set', none), last) ↔
      ¬ (recurse = true ∧ set.dice.sides.EveryFace
          (Condition.acceptsOr set.dice.sides.minFace condition)) ∧
        ∃ chains, List.Forall₂ (Throws recurse
            (Condition.acceptsOr set.dice.sides.minFace condition))
            set.rolls chains ∧
          table.Drawn roller set.dice.sides chains.flatten last ∧
          set' = { set with
            rolls := List.zipWith (rethrown (.reroll condition recurse)) set.rolls
              chains } := by
  rw [Modifier.run_apply_eq_ok_iff (decides_apply condition recurse set)
    replaces_true_iff, isEndless_eq_false_iff]
  simp only [flatten_rethrown]

/-- A reroll that is given up: the chains of the first dice end within the limit,
and then a die is thrown a hundred times and always asks for another throw. -/
theorem run_apply_eq_rollLimit_iff :
    (Modifier.reroll condition recurse).apply set roller table =
        (.ok (set', some (.rollLimit dice)), last) ↔
      ¬ (recurse = true ∧ set.dice.sides.EveryFace
          (Condition.acceptsOr set.dice.sides.minFace condition)) ∧
        ∃ before die after chains throws, set.rolls = before ++ die :: after ∧
          List.Forall₂ (Throws recurse
            (Condition.acceptsOr set.dice.sides.minFace condition)) before chains ∧
          (recurse = true ∧ IsGivenUp
            (Condition.acceptsOr set.dice.sides.minFace condition) die throws) ∧
          table.Drawn roller set.dice.sides (chains.flatten ++ throws) last ∧
          set' = { set with
            rolls := List.zipWith (rethrown (.reroll condition recurse)) before
              chains ++ rethrown (.reroll condition recurse) die throws :: after } ∧
          dice = set.dice := by
  rw [Modifier.run_apply_eq_rollLimit_iff (decides_apply condition recurse set)
    replaces_true_iff replaces_false_iff, isEndless_eq_false_iff]
  simp only [flatten_rethrown, Modifier.remainder, List.append_assoc,
    List.singleton_append]

/-- Only a recursive reroll fails. -/
theorem recurse_of_run_apply {err : Dice.Error}
    (hRun : (Modifier.reroll condition recurse).apply set roller table =
      (.ok (set', some err), last)) :
    recurse = true ∧ (err = .infiniteRolls set.dice ∨ err = .rollLimit set.dice) := by
  have hErr := Modifier.eq_or_eq_of_run_apply (decides_apply condition recurse set) hRun
  refine ⟨?_, hErr⟩
  obtain rfl | rfl := hErr
  · obtain ⟨⟨hRecurse, -⟩, -⟩ := run_apply_eq_infiniteRolls_iff.1 hRun
    exact hRecurse
  · obtain ⟨-, _, _, _, _, _, -, -, ⟨hRecurse, -⟩, -⟩ :=
      run_apply_eq_rollLimit_iff.1 hRun
    exact hRecurse

/-- Whether a reroll ends or not, each die keeps its place, and those that are out of
the total or do not ask for a throw stay as they are. -/
theorem forall₂_of_run_apply {failure : Option Dice.Error}
    (hRun : (Modifier.reroll condition recurse).apply set roller table =
      (.ok (set', failure), last)) :
    List.Forall₂ (fun die die' => (die.isKept && Condition.acceptsOr
        set.dice.sides.minFace condition die.face) = false → die' = die)
      set.rolls set'.rolls := by
  have hSame : ∀ rolls : List Die, List.Forall₂ (fun die die' => (die.isKept &&
      Condition.acceptsOr set.dice.sides.minFace condition die.face) = false →
        die' = die) rolls rolls :=
    fun rolls => List.forall₂_same.2 fun _ _ _ => rfl
  cases failure with
  | none =>
      obtain ⟨-, chains, hChains, -, rfl⟩ := run_apply_eq_ok_iff.1 hRun
      exact forall₂_rethrown (hChains.imp fun _ _ => Throws.rethrown_eq)
  | some err =>
      obtain ⟨-, rfl | rfl⟩ := recurse_of_run_apply hRun
      · obtain ⟨-, rfl, -⟩ := run_apply_eq_infiniteRolls_iff.1 hRun
        exact hSame set'.rolls
      · obtain ⟨-, before, die, after, chains, throws, hSplit, hChains,
          ⟨-, hAsks, -⟩, -, rfl, -⟩ := run_apply_eq_rollLimit_iff.1 hRun
        rw [hSplit]
        refine List.rel_append
          (forall₂_rethrown (hChains.imp fun _ _ => Throws.rethrown_eq))
          (.cons (fun hNot => ?_) (hSame after))
        rw [hAsks] at hNot
        cases hNot

/-- What rerolling comes to, with any roller. A recursive reroll is refused if every
face asks for another throw. If not, and for a single reroll in any case, the dice
are gone through in their order, and each of them that is in the total and asks for
it is thrown again in its place: once, or up to the first throw that does not ask for
another one. The first die that has been thrown a hundred times, and still asks for
it, ends a recursive reroll; nothing ends a single one. -/
theorem reroll_chain_by_chain (condition : Option Condition) (recurse : Bool)
    (set : Rolled) (roller : Roller σ) (table last : Table σ) :
    let sides := set.dice.sides
    let qualifies := Condition.acceptsOr sides.minFace condition
    let shown := rethrown (.reroll condition recurse)
    let run := (Modifier.reroll condition recurse).apply set roller table
    (∀ set' dice, run = (.ok (set', some (.infiniteRolls dice)), last) ↔
      (recurse = true ∧ sides.EveryFace qualifies) ∧ set' = set ∧
        dice = set.dice ∧ last = table) ∧
    (∀ set', run = (.ok (set', none), last) ↔
      ¬ (recurse = true ∧ sides.EveryFace qualifies) ∧
        ∃ chains, List.Forall₂ (Throws recurse qualifies) set.rolls chains ∧
          table.Drawn roller sides chains.flatten last ∧
          set' = { set with rolls := List.zipWith shown set.rolls chains }) ∧
    (∀ set' dice, run = (.ok (set', some (.rollLimit dice)), last) ↔
      ¬ (recurse = true ∧ sides.EveryFace qualifies) ∧
        ∃ before die after chains throws, set.rolls = before ++ die :: after ∧
          List.Forall₂ (Throws recurse qualifies) before chains ∧
          (recurse = true ∧ IsGivenUp qualifies die throws) ∧
          table.Drawn roller sides (chains.flatten ++ throws) last ∧
          set' = { set with
            rolls := List.zipWith shown before chains ++
              shown die throws :: after } ∧
          dice = set.dice) ∧
    (∀ set' err, run = (.ok (set', some err), last) →
      recurse = true ∧ (err = .infiniteRolls set.dice ∨ err = .rollLimit set.dice)) ∧
    (∀ set' failure, run = (.ok (set', failure), last) →
      List.Forall₂ (fun die die' =>
          (die.isKept && qualifies die.face) = false → die' = die)
        set.rolls set'.rolls) ∧
    (∀ set', recurse = true → run = (.ok (set', none), last) →
      ∀ die ∈ set'.rolls, die.isKept = true → qualifies die.face = false) ∧
    ∀ halt, run = (.error halt, last) →
      roller.draw last.state sides.minFace sides.maxFace = .error halt := by
  refine ⟨fun _ _ => run_apply_eq_infiniteRolls_iff,
    fun _ => run_apply_eq_ok_iff, fun _ _ => run_apply_eq_rollLimit_iff,
    fun _ _ => recurse_of_run_apply, fun _ _ => forall₂_of_run_apply, ?settled,
    fun _ => Modifier.draw_eq_error_of_apply⟩
  case settled =>
    rintro set' rfl hRun
    obtain ⟨-, chains, hChains, -, rfl⟩ := run_apply_eq_ok_iff.1 hRun
    exact settled_of_mem hChains

end Runs

end DiceFormula.Reroll
