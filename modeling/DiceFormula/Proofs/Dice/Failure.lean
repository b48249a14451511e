import DiceFormula.Proofs.Dice.Roll
import DiceFormula.Proofs.Modifier.Explosion
import DiceFormula.Proofs.Modifier.Ranking
import DiceFormula.Proofs.Modifier.Reroll
import Mathlib.Data.Prod.Basic

/-!
# What a failure leaves behind

Only modifiers that throw chains of dice can fail, and they do it in three ways. One
that would never end is refused: nothing is thrown and nothing is changed. A reroll
that is given up leaves the set half done, up to the die that was given up, and what
it has thrown can be read off the changes that are new. An explosion that is given up
leaves no dice at all. A roll stops there: the modifiers before the failing one have
been applied, those behind it are not looked at, and only the error is answered.

## Main results

* `Modifier.isChained_of_run_apply` — what fails, and for which reasons.
* `Reroll.exists_abandoned` — the set behind a reroll that is given up.
* `Rolled.run_modify_eq_error_iff`, `Dice.run_roll_eq_error_iff` — the failing
  modifier of a list, and that of a roll.
* `Modifier.state_after_failure` — all of that together.
-/

namespace DiceFormula

open Chain Rolling

variable {σ : Type}

/-! ## What can fail -/

namespace Modifier

/-- Whether the modifier throws dice for as long as they ask for it. -/
def isChained : Modifier → Bool
  | explode _ => true
  | reroll _ recurse => recurse
  | _ => false

variable {m : Modifier} {set set' : Rolled} {dice : Dice} {roller : Roller σ}
  {table last : Table σ}

theorem isChained_iff : m.isChained = true ↔
    (∃ condition, m = explode condition) ∨
      ∃ condition, m = reroll condition true := by
  cases m with
  | keep _ _ | drop _ _ | atLeast _ | atMost _ => simp [isChained]
  | explode condition => simp [isChained]
  | reroll condition recurse => simp [isChained]

/-- What fails is a chained modifier, for one of two reasons. -/
theorem isChained_of_run_apply {err : Dice.Error}
    (hRun : m.apply set roller table = (.ok (set', some err), last)) :
    m.isChained = true ∧
      (err = .infiniteRolls set.dice ∨ err = .rollLimit set.dice) := by
  cases m with
  | keep extreme n =>
      rw [apply_keep] at hRun
      cases hRun
  | drop extreme n =>
      rw [apply_drop] at hRun
      cases hRun
  | atLeast bound => cases hRun
  | atMost bound => cases hRun
  | explode condition =>
      exact ⟨rfl, eq_or_eq_of_run_apply (Explosion.decides_apply condition set) hRun⟩
  | reroll condition recurse => exact Reroll.recurse_of_run_apply hRun

/-- Any other modifier comes to an end, unless the roller gives no further value. -/
theorem run_apply_of_not_isChained (hChained : m.isChained = false) (set : Rolled)
    (roller : Roller σ) (table : Table σ) :
    (∃ set' last, m.apply set roller table = (.ok (set', none), last)) ∨
      ∃ halt last, m.apply set roller table = (.error halt, last) ∧
        roller.draw last.state set.dice.sides.minFace set.dice.sides.maxFace =
          .error halt := by
  rcases hRun : m.apply set roller table with ⟨halt | ⟨set', _ | err⟩, last⟩
  · exact .inr ⟨halt, last, rfl, draw_eq_error_of_apply hRun⟩
  · exact .inl ⟨set', last, rfl⟩
  · have hFails := (isChained_of_run_apply hRun).1
    rw [hChained] at hFails
    cases hFails

/-- A modifier that is refused leaves everything as it was. -/
theorem eq_of_run_apply_infiniteRolls
    (hRun : m.apply set roller table =
      (.ok (set', some (.infiniteRolls dice)), last)) :
    set' = set ∧ dice = set.dice ∧ last = table := by
  obtain ⟨condition, rfl⟩ | ⟨condition, rfl⟩ :=
    isChained_iff.1 (isChained_of_run_apply hRun).1
  · exact (Explosion.run_apply_eq_infiniteRolls_iff.1 hRun).2
  · exact (Reroll.run_apply_eq_infiniteRolls_iff.1 hRun).2

end Modifier

/-! ## Explosions -/

/-- An explosion that is given up has thrown a hundred dice at least, and none of
those on the table are left. -/
theorem Explosion.left_of_rollLimit {condition : Option Condition}
    {set set' : Rolled} {dice : Dice} {roller : Roller σ} {table last : Table σ}
    (hRun : (Modifier.explode condition).apply set roller table =
      (.ok (set', some (.rollLimit dice)), last)) :
    set' = { set with rolls := [] } ∧ dice = set.dice ∧
      ∃ drawn : List Draw, last.draws = table.draws ++ drawn ∧
        100 ≤ drawn.length := by
  obtain ⟨-, _, _, _, chains, throws, -, -, ⟨-, hLength, -⟩, hDrawn, hSet, hDice⟩ :=
    run_apply_eq_rollLimit_iff.1 hRun
  refine ⟨hSet, hDice, _, hDrawn.draws_eq, ?_⟩
  rw [List.length_map, List.length_append, hLength]
  exact Nat.le_add_left 100 _

/-! ## New changes -/

/-- The changes that were not there before, die by die. -/
def newChanges (rolls rolls' : List Die) : List Change :=
  (List.zipWith (fun die die' => die'.changes.drop die.changes.length) rolls
    rolls').flatten

section NewChanges

variable {cause : Modifier} {rolls rolls' : List Die} {chains : List (List Value)}

theorem newChanges_append (h : rolls.length = rolls'.length) (more more' : List Die) :
    newChanges (rolls ++ more) (rolls' ++ more') =
      newChanges rolls rolls' ++ newChanges more more' := by
  rw [newChanges, List.zipWith_append h, List.flatten_append]
  rfl

theorem newChanges_cons (die die' : Die) (rolls rolls' : List Die) :
    newChanges (die :: rolls) (die' :: rolls') =
      die'.changes.drop die.changes.length ++ newChanges rolls rolls' := rfl

theorem newChanges_self (rolls : List Die) : newChanges rolls rolls = [] := by
  induction rolls with
  | nil => rfl
  | cons die rolls ih =>
      rw [newChanges_cons, ih, List.drop_length, List.append_nil]

namespace Reroll

/-- The changes that are logged for a chain of throws show the throws. -/
theorem map_after_zipWith (cause : Modifier) (first : Value) (throws : List Value) :
    (List.zipWith (fun before after => (⟨before, after, cause⟩ : Change))
      (first :: throws) throws).map Change.after = throws := by
  induction throws generalizing first with
  | nil => rfl
  | cons v throws ih => rw [List.zipWith_cons_cons, List.map_cons, ih]

theorem drop_changes_rethrown (cause : Modifier) (die : Die) (throws : List Value) :
    (rethrown cause die throws).changes.drop die.changes.length =
      List.zipWith (fun before after => ⟨before, after, cause⟩)
        (die.face :: throws) throws := by
  rw [rethrown, List.drop_left]

theorem length_changes_rethrown (cause : Modifier) (die : Die)
    (throws : List Value) : (rethrown cause die throws).changes.length =
      die.changes.length + throws.length := by
  rw [rethrown, List.length_append, List.length_zipWith, List.length_cons,
    Nat.min_eq_right (Nat.le_succ _)]

theorem getLast?_eq_some_face_rethrown (cause : Modifier) (die : Die)
    {throws : List Value} {n : Nat} (h : throws.length = n + 1) :
    throws.getLast? = some (rethrown cause die throws).face := by
  obtain ⟨front, v, rfl⟩ := (List.eq_nil_or_concat' throws).resolve_left
    (List.ne_nil_of_length_eq_add_one h)
  rw [List.getLast?_concat, rethrown, List.getLastD_concat]

theorem changes_isPrefix_rethrown (cause : Modifier) (die : Die)
    (throws : List Value) : die.changes <+: (rethrown cause die throws).changes :=
  List.prefix_append _ _

/-- The new changes of a set that was thrown again show all the throws. -/
theorem map_after_newChanges_rethrown {R : Die → List Value → Prop}
    (h : List.Forall₂ R rolls chains) :
    (newChanges rolls (List.zipWith (rethrown cause) rolls chains)).map
      Change.after = chains.flatten := by
  induction h with
  | nil => rfl
  | cons _ _ ih =>
      rw [List.zipWith_cons_cons, newChanges_cons, drop_changes_rethrown,
        List.map_append, map_after_zipWith, ih, List.flatten_cons]

end Reroll

end NewChanges

/-! ## Rerolls -/

namespace Reroll

/-- A recursive reroll of `set` is given up at `die` and leaves `set'`. -/
structure Abandoned (condition : Option Condition) (roller : Roller σ)
    (table middle last : Table σ) (set set' : Rolled) (before before' after : List Die)
    (die die' : Die) (throws : List Value) : Prop where
  split : set.rolls = before ++ die :: after
  /-- The dice in front are left as by a reroll of their own that succeeds, so this
  is the first die that is given up. -/
  front : (Modifier.reroll condition true).apply { set with rolls := before } roller
    table = (.ok ({ set with rolls := before' }, none), middle)
  /-- From there on, a hundred throws for the die all ask for another one. -/
  givenUp : IsGivenUp (Condition.acceptsOr set.dice.sides.minFace condition) die throws
  drawn : middle.Drawn roller set.dice.sides throws last
  /-- The die shows the last throw and has as many new changes as throws. -/
  face : throws.getLast? = some die'.face
  changes : die'.changes.length = die.changes.length + 100
  /-- The dice behind it are untouched. -/
  left : set' = { set with rolls := before' ++ die' :: after }
  /-- No change from before is lost. -/
  logged : List.Forall₂ (fun die die' => die.changes <+: die'.changes) set.rolls
    set'.rolls
  /-- The draws are the new changes. -/
  draws : last.draws = table.draws ++ (newChanges set.rolls set'.rolls).map
    fun change => Draw.mk set.dice.sides.minFace set.dice.sides.maxFace change.after

variable {condition : Option Condition} {set set' : Rolled} {dice : Dice}
  {roller : Roller σ} {table last : Table σ}

/-- A reroll that is given up is given up at a die. -/
theorem exists_abandoned
    (hRun : (Modifier.reroll condition true).apply set roller table =
      (.ok (set', some (.rollLimit dice)), last)) :
    dice = set.dice ∧ ∃ before before' after die die' throws middle,
      Abandoned condition roller table middle last set set' before before' after die
        die' throws := by
  obtain ⟨hEndless, before, die, after, chains, throws, hSplit, hChains,
    ⟨-, hGivenUp⟩, hDrawn, rfl, rfl⟩ := run_apply_eq_rollLimit_iff.1 hRun
  obtain ⟨middle, hFront, hBack⟩ := Table.Drawn.append_iff.1 hDrawn
  refine ⟨rfl, before, List.zipWith (rethrown (.reroll condition true)) before chains,
    after, die, rethrown (.reroll condition true) die throws, throws, middle, ?_⟩
  refine
    { split := hSplit
      front := run_apply_eq_ok_iff.2 ⟨hEndless, chains, hChains, hFront, rfl⟩
      givenUp := hGivenUp
      drawn := hBack
      face := ?face
      changes := by rw [length_changes_rethrown, hGivenUp.2.1]
      left := rfl
      logged := ?logged
      draws := ?draws }
  case face => exact getLast?_eq_some_face_rethrown _ die hGivenUp.2.1
  case logged =>
    rw [hSplit]
    exact List.rel_append
      (forall₂_rethrown (hChains.imp fun die throws _ =>
        changes_isPrefix_rethrown _ die throws))
      (.cons (changes_isPrefix_rethrown _ die throws)
        (List.forall₂_same.2 fun _ _ => List.prefix_refl _))
  case draws =>
    have hLength : before.length =
        (List.zipWith (rethrown (.reroll condition true)) before chains).length := by
      rw [List.length_zipWith, ← hChains.length_eq, Nat.min_self]
    have hNew : (newChanges set.rolls
        (List.zipWith (rethrown (.reroll condition true)) before chains ++
          rethrown (.reroll condition true) die throws :: after)).map Change.after =
        chains.flatten ++ throws := by
      rw [hSplit, newChanges_append hLength, newChanges_cons, newChanges_self,
        drop_changes_rethrown, List.append_nil, List.map_append, map_after_zipWith,
        map_after_newChanges_rethrown hChains]
    rw [hDrawn.draws_eq, ← hNew, List.map_map]
    rfl

end Reroll

/-! ## Lists of modifiers -/

namespace Rolled

variable {set : Rolled} {ms : List Modifier} {roller : Roller σ}
  {table last : Table σ}

/-- Of a list that fails, some modifiers succeed, and the next one fails. It is the
last one that is applied. -/
theorem run_modify_eq_error_iff {err : Dice.Error} :
    (set.modify ms).run roller table = (.ok (.error err), last) ↔
      ∃ front m back reached between set', ms = front ++ m :: back ∧
        (set.modify front).run roller table = (.ok (.ok reached), between) ∧
        m.apply reached roller between = (.ok (set', some err), last) := by
  constructor
  · intro h
    induction ms generalizing set table with
    | nil => cases h
    | cons m ms ih =>
        obtain ⟨set', hFails⟩ | ⟨next, middle, hFirst, hRest⟩ :=
          run_modify_cons_eq_error_iff.1 h
        · exact ⟨[], m, ms, set, table, set', rfl, rfl, hFails⟩
        · obtain ⟨front, m', back, reached, between, set', rfl, hFront, hFails⟩ :=
            ih hRest
          exact ⟨m :: front, m', back, reached, between, set', rfl,
            run_modify_cons_eq_ok_iff.2 ⟨next, middle, hFirst, hFront⟩, hFails⟩
  · rintro ⟨front, m, back, reached, between, set', rfl, hFront, hFails⟩
    induction front generalizing set table with
    | nil =>
        cases hFront
        exact run_modify_cons_eq_error_iff.2 (.inl ⟨set', hFails⟩)
    | cons m' front ih =>
        obtain ⟨next, middle, hFirst, hRest⟩ := run_modify_cons_eq_ok_iff.1 hFront
        exact run_modify_cons_eq_error_iff.2
          (.inr ⟨next, middle, hFirst, ih hRest⟩)

end Rolled

/-- A roll that fails has thrown its dice and applied some of its modifiers; the next
one fails, and nothing happens after that. -/
theorem Dice.run_roll_eq_error_iff {dice : Dice} {roller : Roller σ}
    {table last : Table σ} {err : Dice.Error} :
    (dice.roll true).run roller table = (.ok (.error err), last) ↔
      ∃ front m back thrown first reached between set',
        dice.modifiers = front ++ m :: back ∧
        dice.throwPlain roller table = (.ok thrown, first) ∧
        (thrown.modify front).run roller first = (.ok (.ok reached), between) ∧
        m.apply reached roller between = (.ok (set', some err), last) := by
  rw [roll, ExceptT.run_bind_lift, bind_eq_ok_iff]
  constructor
  · rintro ⟨thrown, first, hThrown, hRest⟩
    obtain hFails | ⟨_, _, -, hNoted⟩ := run_bind_eq_error_iff.1 hRest
    · obtain ⟨front, m, back, reached, between, set', hSplit, hFront, hLast⟩ :=
        Rolled.run_modify_eq_error_iff.1 hFails
      exact ⟨front, m, back, thrown, first, reached, between, set', hSplit, hThrown,
        hFront, hLast⟩
    · cases hNoted
  · rintro ⟨front, m, back, thrown, first, reached, between, set', hSplit, hThrown,
      hFront, hLast⟩
    refine ⟨thrown, first, hThrown, ?_⟩
    refine run_bind_eq_error_iff.2 (.inl ?_)
    exact Rolled.run_modify_eq_error_iff.2
      ⟨front, m, back, reached, between, set', hSplit, hFront, hLast⟩

/-- What is left where a modifier or a roll fails, with any roller. A modifier that
is refused has drawn nothing and changed nothing. A recursive reroll that is given up
leaves the dice in front of the one that was given up as if they had been alone, that
die with a hundred new changes and the last throw on top, and the dice behind it
untouched; what was drawn are the new changes. An explosion that is given up has drawn
a hundred values at least and leaves no dice. No other modifier fails, and none fails
for another reason. A roll that fails has applied the modifiers up to the one that
fails, none behind it, and answers the error alone. -/
theorem Modifier.state_after_failure (roller : Roller σ) (table last : Table σ) :
    (∀ (m : Modifier) (set set' : Rolled) (dice : Dice),
      m.apply set roller table = (.ok (set', some (.infiniteRolls dice)), last) →
        set' = set ∧ dice = set.dice ∧ last = table) ∧
    (∀ (condition : Option Condition) (set set' : Rolled) (dice : Dice),
      (reroll condition true).apply set roller table =
          (.ok (set', some (.rollLimit dice)), last) →
        dice = set.dice ∧ ∃ before before' after die die' throws middle,
          Reroll.Abandoned condition roller table middle last set set' before before'
            after die die' throws) ∧
    (∀ (condition : Option Condition) (set set' : Rolled) (dice : Dice),
      (explode condition).apply set roller table =
          (.ok (set', some (.rollLimit dice)), last) →
        set' = { set with rolls := [] } ∧ dice = set.dice ∧
          ∃ drawn : List Draw, last.draws = table.draws ++ drawn ∧
            100 ≤ drawn.length) ∧
    (∀ (m : Modifier) (set set' : Rolled) (err : Dice.Error),
      m.apply set roller table = (.ok (set', some err), last) →
        m.isChained = true ∧
          (err = .infiniteRolls set.dice ∨ err = .rollLimit set.dice)) ∧
    (∀ (m : Modifier) (set : Rolled), m.isChained = false →
      (∃ set' last, m.apply set roller table = (.ok (set', none), last)) ∨
        ∃ halt last, m.apply set roller table = (.error halt, last) ∧
          roller.draw last.state set.dice.sides.minFace set.dice.sides.maxFace =
            .error halt) ∧
    ∀ (dice : Dice) (err : Dice.Error),
      (dice.roll true).run roller table = (.ok (.error err), last) ↔
        ∃ front m back thrown first reached between set',
          dice.modifiers = front ++ m :: back ∧
          dice.throwPlain roller table = (.ok thrown, first) ∧
          (thrown.modify front).run roller first = (.ok (.ok reached), between) ∧
          m.apply reached roller between = (.ok (set', some err), last) :=
  ⟨fun _ _ _ _ => eq_of_run_apply_infiniteRolls,
    fun _ _ _ _ => Reroll.exists_abandoned,
    fun _ _ _ _ => Explosion.left_of_rollLimit,
    fun _ _ _ _ => isChained_of_run_apply,
    fun _ set hChained => run_apply_of_not_isChained hChained set roller table,
    fun _ _ => Dice.run_roll_eq_error_iff⟩

/-- Two dice that show a one. -/
def twoOnes : Rolled := ⟨⟨2, .numbered 6, []⟩, [.ofFace 1, .ofFace 1]⟩

/-- With a roller that gives ones only, the first of two ones is thrown a hundred times,
and the second one stays as it is. If ones explode instead, no die is left, and if all
faces do, nothing is thrown. -/
theorem Modifier.state_after_failure_ones :
    (∃ set' last,
      (reroll none true).apply twoOnes Roller.constant (Table.new 1) =
          (.ok (set', some (.rollLimit twoOnes.dice)), last) ∧
        set'.rolls.map (fun die => die.changes.length) = [100, 0] ∧
        ∃ before before' after die die' throws middle,
          Reroll.Abandoned none Roller.constant (Table.new 1) middle last twoOnes set'
            before before' after die die' throws) ∧
    (∃ set' last,
      (explode (some ⟨.eq, 1⟩)).apply twoOnes Roller.constant (Table.new 1) =
          (.ok (set', some (.rollLimit twoOnes.dice)), last) ∧
        set'.rolls = [] ∧ ∃ drawn : List Draw,
          last.draws = (Table.new (1 : Value)).draws ++ drawn ∧ 100 ≤ drawn.length) ∧
    ∃ set' last,
      (explode (some ⟨.ge, 1⟩)).apply twoOnes Roller.constant (Table.new 1) =
          (.ok (set', some (.infiniteRolls twoOnes.dice)), last) ∧
        set' = twoOnes ∧ last = Table.new 1 := by
  have hReroll : ((reroll none true).apply twoOnes Roller.constant (Table.new 1)).1 =
      .ok (⟨twoOnes.dice, [Reroll.rethrown (.reroll none true) (.ofFace 1)
        (List.replicate 100 1), .ofFace 1]⟩, some (.rollLimit twoOnes.dice)) := by
    decide +kernel
  have hExplode : ((explode (some ⟨.eq, 1⟩)).apply twoOnes Roller.constant
      (Table.new 1)).1 =
      .ok (⟨twoOnes.dice, []⟩, some (.rollLimit twoOnes.dice)) := by
    decide +kernel
  have hRefused : ((explode (some ⟨.ge, 1⟩)).apply twoOnes Roller.constant
      (Table.new 1)).1 = .ok (twoOnes, some (.infiniteRolls twoOnes.dice)) := rfl
  have hLengths : [Reroll.rethrown (.reroll none true) (.ofFace 1)
      (List.replicate 100 1), .ofFace 1].map (fun die => die.changes.length) =
        [100, 0] := rfl
  refine ⟨?given_up, ?exploded, ?refused⟩
  case given_up =>
    have hRun := Prod.fst_eq_iff.1 hReroll
    obtain ⟨-, hAbandoned, -⟩ := Modifier.state_after_failure Roller.constant
      (Table.new 1) _
    exact ⟨_, _, hRun, hLengths, (hAbandoned _ _ _ _ hRun).2⟩
  case exploded =>
    have hRun := Prod.fst_eq_iff.1 hExplode
    obtain ⟨-, -, hEmptied, -⟩ := Modifier.state_after_failure Roller.constant
      (Table.new 1) _
    exact ⟨_, _, hRun, rfl, (hEmptied _ _ _ _ hRun).2.2⟩
  case refused =>
    have hRun := Prod.fst_eq_iff.1 hRefused
    obtain ⟨hIntact, -⟩ := Modifier.state_after_failure Roller.constant
      (Table.new 1) _
    obtain ⟨hSame, -, hTable⟩ := hIntact _ _ _ _ hRun
    exact ⟨_, _, hRun, hSame, hTable⟩

end DiceFormula
