import DiceFormula.Proofs.Dice.Draws

/-!
# The log of a die

A die keeps two histories in one log: that of the face it shows and that of the
value it counts for. Throwing it again changes both, from whatever face it
shows; a limit changes the value alone, from whatever it counts for. So each
change continues the log in its own way, and nothing but the log and the first
face is needed to tell what the die has come to.

This is so of every die that can lie on the table: after a roll, after any
modifiers that were applied to the set later on, and also where a reroll was
given up and has left a set half done.

## Main results

* `Die.Faithful.change`, `Die.Faithful.raise`, `Die.Faithful.lower` — what a
  modifier does to a die continues its log.
* `Modifier.Replaces.faithful` — so do the dice that take the place of one.
* `Rolled.log_faithful` — the logs of all sets that can come about are faithful.
-/

namespace DiceFormula

open Chain

variable {σ : Type}

/-! ## What a log tells -/

namespace Change

/-- The face shown after these changes by a die that showed `first` before. -/
def shown (first : Value) (log : List Change) : Value :=
  ((log.filter fun change => change.cause.isReroll).map after).getLastD first

/-- What a die counts for after these changes if it showed `first` before. -/
def worth (first : Value) (log : List Change) : Value :=
  (log.map after).getLastD first

/-- Whether the change may be the next one of a die with these sides that showed
`first` at first and has been changed as it says in `earlier`. A reroll starts
from the face, which has to ask for it; a limit starts from the value, which has
to lie beyond it, and ends at the limit. -/
def Continues (sides : Sides) (first : Value) (earlier : List Change)
    (change : Change) : Prop :=
  match change.cause with
  | .reroll condition _ =>
    change.before = shown first earlier ∧
      Condition.acceptsOr sides.minFace condition change.before = true
  | .atLeast bound =>
    change.before = worth first earlier ∧ change.before < bound ∧
      change.after = bound
  | .atMost bound =>
    change.before = worth first earlier ∧ bound < change.before ∧
      change.after = bound
  | _ => False

variable {first : Value} {log : List Change} {change : Change}

theorem shown_concat_reroll (h : change.cause.isReroll = true) :
    shown first (log ++ [change]) = change.after := by
  simp [shown, h]

theorem shown_concat_limit (h : change.cause.isReroll = false) :
    shown first (log ++ [change]) = shown first log := by
  simp [shown, h]

theorem worth_concat : worth first (log ++ [change]) = change.after := by
  simp [worth]

end Change

/-! ## Dice with a faithful log -/

namespace Die

/-- The die showed `first` at first, its face and its value are what the log
tells, and every change continues the log before it. -/
structure Faithful (sides : Sides) (first : Value) (die : Die) : Prop where
  face : die.face = Change.shown first die.changes
  counted : die.counted = Change.worth first die.changes
  continues : ∀ earlier change later,
    die.changes = earlier ++ change :: later →
      change.Continues sides first earlier

/-- The die with the same marks and the same log, and the face and the value
that the log tells. -/
def restored (first : Value) (die : Die) : Die where
  face := Change.shown first die.changes
  counted := Change.worth first die.changes
  addedBy := die.addedBy
  droppedBy := die.droppedBy
  explodedBy := die.explodedBy
  changes := die.changes

variable {sides : Sides} {first : Value} {die die' : Die}

theorem Faithful.restored_eq (h : die.Faithful sides first) :
    die.restored first = die := by
  rw [restored, ← h.face, ← h.counted]

/-- A die that was just thrown has an empty log. -/
theorem faithful_of_changes_eq_nil (hFace : die.face = first)
    (hCounted : die.counted = first) (hChanges : die.changes = []) :
    die.Faithful sides first := by
  refine ⟨?_, ?_, ?_⟩
  · rw [hFace, hChanges]
    rfl
  · rw [hCounted, hChanges]
    rfl
  · intro earlier change later hSplit
    rw [hChanges] at hSplit
    exact absurd hSplit.symm (List.append_ne_nil_of_right_ne_nil earlier nofun)

/-- A die on which nothing was changed still shows its first face and counts for
it. -/
theorem Faithful.of_isChanged_eq_false (h : die.Faithful sides first)
    (hChanged : die.isChanged = false) : die.face = first ∧ die.counted = first := by
  have hNone : die.changes = [] := by
    rwa [isChanged, Bool.not_eq_false', List.isEmpty_iff] at hChanged
  rw [h.face, h.counted, hNone]
  exact ⟨rfl, rfl⟩

/-- One more change at the end of a faithful log. -/
theorem Faithful.concat {change : Change} (h : die.Faithful sides first)
    (hChanges : die'.changes = die.changes ++ [change])
    (hNext : change.Continues sides first die.changes)
    (hFace : die'.face = Change.shown first (die.changes ++ [change]))
    (hCounted : die'.counted = change.after) : die'.Faithful sides first := by
  refine ⟨?_, ?_, ?_⟩
  · rw [hFace, hChanges]
  · rw [hCounted, hChanges, Change.worth_concat]
  · intro earlier c later hSplit
    rw [hChanges] at hSplit
    -- The change looked at is the new one, or the new one is behind it.
    rcases List.eq_nil_or_concat later with hLater | ⟨later', last, hLater⟩
    · rw [hLater] at hSplit
      obtain ⟨hEarlier, hLast⟩ := List.append_inj' hSplit rfl
      rw [← hEarlier, ← List.singleton_inj.1 hLast]
      exact hNext
    · rw [hLater, List.concat_eq_append, ← List.cons_append,
        ← List.append_assoc] at hSplit
      exact h.continues earlier c later' (List.append_inj' hSplit rfl).1

/-- A die that asks for it is thrown again. -/
theorem Faithful.change {condition : Option Condition}
    (h : die.Faithful sides first) (recurse : Bool)
    (hAsks : Condition.acceptsOr sides.minFace condition die.face = true)
    (v : Value) :
    (die.change (.reroll condition recurse) v).Faithful sides first := by
  refine h.concat rfl ⟨h.face, hAsks⟩ ?_ rfl
  rw [Change.shown_concat_reroll rfl]
  rfl

/-- A die that counts for less than the limit is raised to it. -/
theorem Faithful.raise {bound : Value} (h : die.Faithful sides first)
    (hBelow : die.counted < bound) :
    (die.clamp (.atLeast bound) bound).Faithful sides first := by
  refine h.concat rfl ⟨h.counted, hBelow, rfl⟩ ?_ rfl
  exact h.face.trans (Change.shown_concat_limit rfl).symm

/-- A die that counts for more than the limit is lowered to it. -/
theorem Faithful.lower {bound : Value} (h : die.Faithful sides first)
    (hAbove : bound < die.counted) :
    (die.clamp (.atMost bound) bound).Faithful sides first := by
  refine h.concat rfl ⟨h.counted, hAbove, rfl⟩ ?_ rfl
  exact h.face.trans (Change.shown_concat_limit rfl).symm

/-- A die is thrown again for as long as it asks for it. Every throw but the last
shows a face that asks for another. -/
theorem Faithful.rerolled {condition : Option Condition} {recurse : Bool}
    {budget : Nat} {values : List Value} {finished : Bool}
    (hRan : Ran (fun v => recurse &&
      Condition.acceptsOr sides.minFace condition v) budget values finished)
    (h : die.Faithful sides first)
    (hAsks : Condition.acceptsOr sides.minFace condition die.face = true) :
    (values.foldl (fun die v => die.change (.reroll condition recurse) v)
      die).Faithful sides first := by
  induction hRan generalizing die with
  | givenUp => exact h
  | @ended _ v _ => exact h.change recurse hAsks v
  | @goesOn _ v _ _ hAgain _ ih =>
      have hAsksAgain := (Bool.and_eq_true_iff.1 hAgain).2
      exact ih (h.change recurse hAsks v) hAsksAgain

/-- The first face of a faithful log can be told from the die. -/
theorem Faithful.firstFace_eq (h : die.Faithful sides first) :
    die.firstFace = first := by
  unfold firstFace
  cases hRerolls : die.rerolls with
  | nil =>
      rw [h.face, Change.shown]
      unfold rerolls at hRerolls
      rw [hRerolls]
      rfl
  | cons change others =>
      obtain ⟨earlier, later, hSplit, hEarlier, hReroll, -⟩ :=
        List.filter_eq_cons_iff.1 hRerolls
      have hNext := h.continues earlier change later hSplit
      have hNone : earlier.filter (fun c => c.cause.isReroll) = [] :=
        List.filter_eq_nil_iff.2 hEarlier
      unfold Change.Continues at hNext
      cases hCause : change.cause with
      | reroll condition recurse =>
          rw [hCause] at hNext
          show change.before = first
          rw [hNext.1, Change.shown, hNone]
          rfl
      | keep | drop | atLeast | atMost | explode =>
          rw [hCause] at hReroll
          cases hReroll

end Die

/-! ## Modifiers -/

/-- The dice that take the place of a die with a faithful log have one. -/
theorem Modifier.Replaces.faithful {sides : Sides} {m : Modifier} {die : Die}
    {values : List Value} {outcome : Outcome}
    (h : m.Replaces sides die values outcome)
    (hDie : ∃ first, die.Faithful sides first) :
    ∀ die' ∈ outcome.rolls, ∃ first, die'.Faithful sides first := by
  obtain ⟨first, hFaithful⟩ := hDie
  cases h.effect with
  | untouched => exact List.forall_mem_singleton.2 ⟨first, hFaithful⟩
  | dropped =>
      refine List.forall_mem_singleton.2 ⟨first, ?_⟩
      exact ⟨hFaithful.face, hFaithful.counted, hFaithful.continues⟩
  | raised _ hBelow =>
      exact List.forall_mem_singleton.2 ⟨first, hFaithful.raise hBelow⟩
  | lowered _ hAbove =>
      exact List.forall_mem_singleton.2 ⟨first, hFaithful.lower hAbove⟩
  | exploded _ _ _ hRolls =>
      rw [hRolls]
      refine List.forall_mem_cons.2 ⟨⟨first, ?_⟩, ?_⟩
      · exact ⟨hFaithful.face, hFaithful.counted, hFaithful.continues⟩
      · refine List.forall_mem_map.2 fun v _ => ⟨v, ?_⟩
        exact Die.faithful_of_changes_eq_nil rfl rfl rfl
  | rerolled _ hAsks hRan hRolls =>
      rw [hRolls]
      exact List.forall_mem_singleton.2 ⟨first, hFaithful.rerolled hRan hAsks⟩

/-! ## Sets -/

namespace Rolled

/-- The sets that can come about: sets that show given faces, sets that were
rolled, with or without their modifiers, and what any modifiers have left of
such sets, whether or not they failed and whatever their rollers. -/
inductive Made : Rolled → Prop
  | ofFaces (dice : Dice) (faces : List Value) : Made (.ofFaces dice faces)
  | rolled {σ : Type} {roller : Roller σ} {table last : Table σ} {dice : Dice}
      {modify : Bool} {set : Rolled}
      (h : (dice.roll modify).run roller table = (.ok (.ok set), last)) :
      Made set
  | applied {σ : Type} {roller : Roller σ} {table last : Table σ}
      {m : Modifier} {set set' : Rolled} {failure : Option Dice.Error}
      (hSet : Made set)
      (h : m.apply set roller table = (.ok (set', failure), last)) : Made set'

theorem faithful_ofFaces (dice : Dice) (faces : List Value) :
    ∀ die ∈ (ofFaces dice faces).rolls,
      ∃ first, die.Faithful dice.sides first :=
  List.forall_mem_map.2 fun v _ =>
    ⟨v, Die.faithful_of_changes_eq_nil rfl rfl rfl⟩

theorem Made.faithful {set : Rolled} (h : set.Made) :
    ∀ die ∈ set.rolls, ∃ first, die.Faithful set.dice.sides first := by
  induction h with
  | ofFaces dice faces => exact faithful_ofFaces dice faces
  | @rolled _ _ _ _ dice modify set hRoll =>
      obtain ⟨_, -, -, first, _, -, -, hModified⟩ :=
        (dice.ensures_roll modify).of_run_eq_ok hRoll
      rw [hModified.dice_eq set rfl]
      exact hModified.forall_mem
        (fun _ _ _ _ _ => Modifier.Replaces.faithful)
        (faithful_ofFaces dice first) set rfl
  | @applied _ _ _ _ m set set' failure _ hApply ih =>
      obtain ⟨_, -, -, hApplied⟩ := (m.ensures_apply set).of_run_eq_ok hApply
      rw [hApplied.dice_eq]
      exact hApplied.forall_mem (fun _ _ _ => Modifier.Replaces.faithful) ih

/-- In every set that can come about, the logs of the dice are faithful. Each die
has a first face from which its log leads to the face it shows and to the value
it counts for, and every change in it is one that its cause had to make at that
moment. So the text of a die with all its marks, and the total of the set, can be
found from the first faces and the logs alone. -/
theorem log_faithful {set : Rolled} (h : set.Made) :
    (∀ die ∈ set.rolls, die.Faithful set.dice.sides die.firstFace ∧
      (die.restored die.firstFace).text = die.text) ∧
    (⟨set.dice, set.rolls.map fun die => die.restored die.firstFace⟩ :
      Rolled).total = set.total := by
  have hFaithful : ∀ die ∈ set.rolls,
      die.Faithful set.dice.sides die.firstFace := by
    intro die hDie
    obtain ⟨first, hFirst⟩ := h.faithful die hDie
    rw [hFirst.firstFace_eq]
    exact hFirst
  have hRestored : ∀ die ∈ set.rolls, die.restored die.firstFace = die :=
    fun die hDie => (hFaithful die hDie).restored_eq
  refine ⟨fun die hDie => ⟨hFaithful die hDie, ?_⟩, ?_⟩
  · rw [hRestored die hDie]
  · rw [List.map_congr_left hRestored, List.map_id']

/-- Two dice show a two and a five and count for at least four. Then the two is
thrown again until it is more than two, and both are limited to two. -/
theorem log_faithful_limited :
    ∃ set : Rolled, set.Made ∧
      set.rolls.map Die.text = ["3r[2]", "5[2]"] ∧
      (set.rolls.flatMap Die.changes).map Change.before = [2, 2, 1, 3, 5] ∧
      (∀ die ∈ set.rolls, die.Faithful set.dice.sides die.firstFace ∧
        (die.restored die.firstFace).text = die.text) ∧
      (⟨set.dice, set.rolls.map fun die => die.restored die.firstFace⟩ :
        Rolled).total = set.total := by
  have hRoll : (((⟨2, .numbered 6, [.atLeast 4]⟩ : Dice).roll true).run
      Roller.listed (Table.new [2, 5])).1 =
      .ok (.ok ⟨⟨2, .numbered 6, [.atLeast 4]⟩,
        [(Die.ofFace 2).clamp (.atLeast 4) 4, Die.ofFace 5]⟩) := rfl
  have hRolled : Made _ := .rolled (Prod.ext hRoll rfl)
  have hRerolled := @Made.applied _ Roller.listed (Table.new [1, 3]) _
    (.reroll (some ⟨.le, 2⟩) true) _ _ _ hRolled rfl
  have hLimited := @Made.applied _ Roller.constant (Table.new 0) _ (.atMost 2)
    _ _ _ hRerolled rfl
  exact ⟨_, hLimited, rfl, rfl, log_faithful hLimited⟩

end Rolled

end DiceFormula
