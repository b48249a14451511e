import DiceFormula.Proofs.Dice.Draws

/-!
# Where the marks of a die come from

Each kind of mark is made by one kind of modifier, and in a roll only by the
modifiers of the set. A die that exploded lies in front of the first die that it
made a modifier throw. Later modifiers may drop these dice, throw them again or
let them explode once more, and then further dice come to lie between a die and
the one that was added behind it; but these have been added as well.

What a modifier does to the marks of a die that was or was not added, and did or
did not explode, is one of two things: nothing, or an explosion
(`Modifier.Replaces.same_or_exploded`). The order and the number of the dice with
such marks follow from that.

## Main results

* `Modifier.Replaces.markedBy` — a modifier makes no marks but its own.
* `Rolled.Modified.linked` — exploded dice are followed by dice that were added.
* `Rolled.Modified.evenlyMarked` — a single explosion adds a die for every die
  that explodes.
* `Dice.provenance` — all of that for the sets that are rolled.
-/

namespace DiceFormula

open Chain

variable {σ : Type}

/-- Whether the modifier limits what dice count for. -/
def Modifier.isLimit : Modifier → Bool
  | atLeast _ => true
  | atMost _ => true
  | _ => false

/-! ## Marks -/

namespace Die

/-- All marks and changes of the die have been made by modifiers of the list, and
each kind of mark by those of its kind. -/
structure MarkedBy (ms : List Modifier) (die : Die) : Prop where
  added : ∀ m, die.addedBy = some m → m ∈ ms ∧ m.isExplosion = true
  exploded : ∀ m, die.explodedBy = some m → m ∈ ms ∧ m.isExplosion = true
  dropped : ∀ m, die.droppedBy = some m → m ∈ ms ∧ m.isSelection = true
  changed : ∀ change ∈ die.changes, change.cause ∈ ms ∧
    (change.cause.isReroll = true ∨ change.cause.isLimit = true)

variable {ms : List Modifier} {m : Modifier} {die : Die}

theorem markedBy_ofFace (ms : List Modifier) (v : Value) :
    (ofFace v).MarkedBy ms :=
  ⟨nofun, nofun, nofun, List.forall_mem_nil _⟩

theorem MarkedBy.drop (h : die.MarkedBy ms) (hMem : m ∈ ms)
    (hKind : m.isSelection = true) :
    ({ die with droppedBy := some m } : Die).MarkedBy ms where
  added := h.added
  exploded := h.exploded
  dropped := by
    rintro _ ⟨⟩
    exact ⟨hMem, hKind⟩
  changed := h.changed

theorem MarkedBy.explode (h : die.MarkedBy ms) (hMem : m ∈ ms)
    (hKind : m.isExplosion = true) : (die.explode m).MarkedBy ms where
  added := h.added
  exploded := by
    rintro _ ⟨⟩
    exact ⟨hMem, hKind⟩
  dropped := h.dropped
  changed := h.changed

theorem MarkedBy.clamp (h : die.MarkedBy ms) (hMem : m ∈ ms)
    (hKind : m.isLimit = true) (v : Value) : (die.clamp m v).MarkedBy ms where
  added := h.added
  exploded := h.exploded
  dropped := h.dropped
  changed := List.forall_mem_append.2
    ⟨h.changed, List.forall_mem_singleton.2 ⟨hMem, .inr hKind⟩⟩

theorem MarkedBy.change (h : die.MarkedBy ms) (hMem : m ∈ ms)
    (hKind : m.isReroll = true) (v : Value) : (die.change m v).MarkedBy ms where
  added := h.added
  exploded := h.exploded
  dropped := h.dropped
  changed := List.forall_mem_append.2
    ⟨h.changed, List.forall_mem_singleton.2 ⟨hMem, .inl hKind⟩⟩

theorem MarkedBy.foldl_change (h : die.MarkedBy ms) (hMem : m ∈ ms)
    (hKind : m.isReroll = true) (values : List Value) :
    (values.foldl (fun die v => die.change m v) die).MarkedBy ms := by
  induction values generalizing die with
  | nil => exact h
  | cons v values ih => exact ih (h.change hMem hKind v)

theorem isAdditional_foldl_change (values : List Value) :
    (values.foldl (fun die v => die.change m v) die).isAdditional =
      die.isAdditional := by
  induction values generalizing die with
  | nil => rfl
  | cons v values ih => exact ih

theorem isExploded_foldl_change (values : List Value) :
    (values.foldl (fun die v => die.change m v) die).isExploded =
      die.isExploded := by
  induction values generalizing die with
  | nil => rfl
  | cons v values ih => exact ih

end Die

theorem Explosion.markedBy_follower {ms : List Modifier} {cause : Modifier}
    (hMem : cause ∈ ms) (hKind : cause.isExplosion = true)
    (qualifies : Value → Bool) (v : Value) :
    (follower cause qualifies v).MarkedBy ms where
  added := by
    rintro _ ⟨⟩
    exact ⟨hMem, hKind⟩
  exploded m hMark := by
    by_cases hAgain : qualifies v = true
    · rw [follower, if_pos hAgain] at hMark
      cases hMark
      exact ⟨hMem, hKind⟩
    · rw [follower, if_neg hAgain] at hMark
      cases hMark
  dropped := nofun
  changed := List.forall_mem_nil _

namespace Modifier.Replaces

variable {sides : Sides} {m : Modifier} {die : Die} {values : List Value}
  {outcome : Outcome}

/-- A modifier makes no marks but its own. -/
theorem markedBy {ms : List Modifier} (hMem : m ∈ ms)
    (h : m.Replaces sides die values outcome) (hDie : die.MarkedBy ms) :
    ∀ die' ∈ outcome.rolls, die'.MarkedBy ms := by
  cases h.effect with
  | untouched => exact List.forall_mem_singleton.2 hDie
  | dropped hKind =>
      exact List.forall_mem_singleton.2 (hDie.drop hMem hKind)
  | raised | lowered =>
      exact List.forall_mem_singleton.2 (hDie.clamp hMem rfl _)
  | exploded _ _ _ hRolls =>
      rw [hRolls]
      refine List.forall_mem_cons.2 ⟨hDie.explode hMem rfl, ?_⟩
      exact List.forall_mem_map.2 fun v _ =>
        Explosion.markedBy_follower hMem rfl _ v
  | rerolled _ _ _ hRolls =>
      rw [hRolls]
      exact List.forall_mem_singleton.2 (hDie.foldl_change hMem rfl values)

/-- Either one die takes the place of the die, and it was added or exploded if the
die was or did; or the die explodes. -/
theorem same_or_exploded (h : m.Replaces sides die values outcome) :
    (∃ die', outcome.rolls = [die'] ∧ die'.isAdditional = die.isAdditional ∧
      die'.isExploded = die.isExploded) ∨
    m.isExplosion = true ∧ ∃ qualifies,
      Ran qualifies limit values outcome.finished ∧
        outcome.rolls =
          die.explode m :: values.map (Explosion.follower m qualifies) := by
  cases h.effect with
  | untouched | dropped | raised | lowered => exact .inl ⟨_, rfl, rfl, rfl⟩
  | exploded _ _ hRan hRolls => exact .inr ⟨rfl, _, hRan, hRolls⟩
  | rerolled _ _ _ hRolls =>
      exact .inl ⟨_, hRolls, Die.isAdditional_foldl_change values,
        Die.isExploded_foldl_change values⟩

end Modifier.Replaces

/-! ## The order of the dice -/

namespace Explosion

/-- The first of the dice was added. -/
def Leads (rolls : List Die) : Prop :=
  ∃ die ∈ rolls.head?, die.isAdditional = true

/-- Every die that exploded is followed by one that was added. -/
def Linked : List Die → Prop
  | [] => True
  | die :: rest => (die.isExploded = true → Leads rest) ∧ Linked rest

theorem leads_cons {die : Die} {rest : List Die} :
    Leads (die :: rest) ↔ die.isAdditional = true := by
  simp [Leads]

theorem Linked.followed {rolls before after : List Die} {die : Die}
    (h : Linked rolls) (hSplit : rolls = before ++ die :: after)
    (hExploded : die.isExploded = true) :
    ∃ next more, after = next :: more ∧ next.isAdditional = true := by
  induction before generalizing rolls with
  | nil =>
      rw [hSplit] at h
      obtain ⟨next, hHead, hAdded⟩ := h.1 hExploded
      obtain ⟨more, hAfter⟩ := List.head?_eq_some_iff.1 hHead
      exact ⟨next, more, hAfter, hAdded⟩
  | cons first before ih =>
      rw [hSplit] at h
      exact ih h.2 rfl

theorem linked_of_not_exploded {rolls : List Die}
    (h : ∀ die ∈ rolls, die.isExploded = false) : Linked rolls := by
  induction rolls with
  | nil => trivial
  | cons die rest ih =>
      obtain ⟨hDie, hRest⟩ := List.forall_mem_cons.1 h
      refine ⟨fun hExploded => ?_, ih hRest⟩
      rw [hDie] at hExploded
      cases hExploded

/-- The dice of a finished chain are linked, and the first of them was added.
The last one did not explode, whatever comes behind it. -/
theorem linked_followers (cause : Modifier) {qualifies : Value → Bool}
    {budget : Nat} {values : List Value} {rest : List Die}
    (h : Ran qualifies budget values true) (hRest : Linked rest) :
    Linked (values.map (follower cause qualifies) ++ rest) ∧
      Leads (values.map (follower cause qualifies) ++ rest) := by
  generalize hFinished : true = finished at h
  induction h with
  | givenUp => cases hFinished
  | @ended _ v hLast =>
      have hNot : (follower cause qualifies v).isExploded = false := by
        simp [follower, Die.isExploded, hLast]
      refine ⟨⟨fun hExploded => ?_, hRest⟩, leads_cons.2 rfl⟩
      rw [hNot] at hExploded
      cases hExploded
  | goesOn _ _ ih =>
      obtain ⟨hLinked, hLeads⟩ := ih hFinished
      exact ⟨⟨fun _ => hLeads, hLinked⟩, leads_cons.2 rfl⟩

end Explosion

open Explosion

/-- What takes the place of a die is linked with the dice behind it, and starts
with a die that was added if the die was. -/
theorem Modifier.Replaces.linked {sides : Sides} {m : Modifier} {die : Die}
    {values : List Value} {outcome : Outcome} {rest : List Die}
    (h : m.Replaces sides die values outcome) (hFinished : outcome.finished = true)
    (hDie : die.isExploded = true → Leads rest) (hRest : Linked rest) :
    Linked (outcome.rolls ++ rest) ∧
      (Leads (outcome.rolls ++ rest) ↔ die.isAdditional = true) := by
  rcases h.same_or_exploded with
    ⟨die', hDice, hAdded, hExploded⟩ | ⟨-, qualifies, hRan, hDice⟩
  · rw [hDice, List.singleton_append, leads_cons, hAdded]
    exact ⟨⟨fun hMark => hDie (hExploded.symm.trans hMark), hRest⟩, Iff.rfl⟩
  · rw [hDice, List.cons_append, leads_cons]
    rw [hFinished] at hRan
    obtain ⟨hLinked, hLeads⟩ := linked_followers m hRan hRest
    exact ⟨⟨fun _ => hLeads, hLinked⟩, Iff.rfl⟩

/-- A walk that is finished keeps the dice linked. The induction needs to know
that the rest of the set starts with an added die as it did before, because the
die in front of it may have exploded long ago. -/
theorem Chain.Walked.linked {sides : Sides} {m : Modifier}
    {rolls : List Die} {values : List Value} {outcome : Outcome}
    (h : Walked (m.Replaces sides) rolls values outcome)
    (hFinished : outcome.finished = true) (hRolls : Linked rolls) :
    Linked outcome.rolls ∧ (Leads outcome.rolls ↔ Leads rolls) := by
  induction h with
  | done => exact ⟨hRolls, Iff.rfl⟩
  | passed hStep _ ih =>
      obtain ⟨hRest, hSame⟩ := ih hFinished hRolls.2
      have hDie := hStep.linked rfl (fun hMark => hSame.2 (hRolls.1 hMark)) hRest
      exact ⟨hDie.1, hDie.2.trans leads_cons.symm⟩
  | stopped => cases hFinished

/-! ## The number of the dice -/

/-- As many dice were added as exploded. -/
def Explosion.EvenlyMarked (rolls : List Die) : Prop :=
  rolls.countP Die.isAdditional = rolls.countP Die.isExploded

/-- As many dice were added, and as many exploded, among these as among those. -/
structure Explosion.SameCounts (rolls rolls' : List Die) : Prop where
  added : rolls'.countP Die.isAdditional = rolls.countP Die.isAdditional
  exploded : rolls'.countP Die.isExploded = rolls.countP Die.isExploded

/-- No die was added and none exploded. -/
structure Explosion.Unmarked (rolls : List Die) : Prop where
  added : rolls.countP Die.isAdditional = 0
  exploded : rolls.countP Die.isExploded = 0

namespace Explosion

variable {rolls rolls' others others' : List Die} {cause : Modifier}
  {qualifies : Value → Bool}

theorem SameCounts.of_die {die die' : Die}
    (hAdded : die'.isAdditional = die.isAdditional)
    (hExploded : die'.isExploded = die.isExploded) :
    SameCounts [die] [die'] := by
  constructor
  · rw [List.countP_singleton, List.countP_singleton, hAdded]
  · rw [List.countP_singleton, List.countP_singleton, hExploded]

theorem SameCounts.trans {rolls'' : List Die} (h : SameCounts rolls rolls')
    (h' : SameCounts rolls' rolls'') : SameCounts rolls rolls'' :=
  ⟨h'.added.trans h.added, h'.exploded.trans h.exploded⟩

theorem SameCounts.append (h : SameCounts rolls rolls')
    (h' : SameCounts others others') :
    SameCounts (rolls ++ others) (rolls' ++ others') := by
  constructor
  · rw [List.countP_append, List.countP_append, h.added, h'.added]
  · rw [List.countP_append, List.countP_append, h.exploded, h'.exploded]

theorem SameCounts.evenlyMarked (h : SameCounts rolls rolls')
    (hRolls : EvenlyMarked rolls) : EvenlyMarked rolls' := by
  rw [EvenlyMarked, h.added, h.exploded]
  exact hRolls

theorem SameCounts.unmarked (h : SameCounts rolls rolls')
    (hUnmarked : Unmarked rolls) : Unmarked rolls' :=
  ⟨h.added.trans hUnmarked.added, h.exploded.trans hUnmarked.exploded⟩

theorem Unmarked.evenlyMarked (h : Unmarked rolls) : EvenlyMarked rolls :=
  h.added.trans h.exploded.symm

theorem Unmarked.of_append (h : Unmarked (rolls ++ others)) :
    Unmarked rolls ∧ Unmarked others := by
  have hAdded := h.added
  have hExploded := h.exploded
  rw [List.countP_append] at hAdded hExploded
  exact ⟨⟨by omega, by omega⟩, ⟨by omega, by omega⟩⟩

theorem EvenlyMarked.append (h : EvenlyMarked rolls) (h' : EvenlyMarked others) :
    EvenlyMarked (rolls ++ others) := by
  rw [EvenlyMarked, List.countP_append, List.countP_append, h, h']

/-- All dice of a finished chain but the last one exploded. -/
theorem countP_followers {budget : Nat} {values : List Value}
    (h : Ran qualifies budget values true) :
    (values.map (follower cause qualifies)).countP Die.isAdditional =
      (values.map (follower cause qualifies)).countP Die.isExploded + 1 := by
  generalize hFinished : true = finished at h
  induction h with
  | givenUp => cases hFinished
  | @ended _ v hLast =>
      simp [follower, Die.isAdditional, Die.isExploded, hLast]
  | @goesOn _ v _ _ hAgain _ ih =>
      have hMore := ih hFinished
      have hAdded : (follower cause qualifies v).isAdditional = true := rfl
      have hExploded : (follower cause qualifies v).isExploded = true := by
        simp [follower, Die.isExploded, hAgain]
      rw [List.map_cons, List.countP_cons_of_pos hAdded,
        List.countP_cons_of_pos hExploded, hMore]

end Explosion

namespace Modifier.Replaces

variable {sides : Sides} {m : Modifier} {die : Die} {values : List Value}
  {outcome : Outcome}

/-- Only explosions add dice or make them explode. -/
theorem sameCounts (h : m.Replaces sides die values outcome)
    (hOther : m.isExplosion = false) : SameCounts [die] outcome.rolls := by
  rcases h.same_or_exploded with ⟨die', hDice, hAdded, hExploded⟩ | ⟨hKind, -⟩
  · rw [hDice]
    exact .of_die hAdded hExploded
  · rw [hOther] at hKind
    cases hKind

/-- A die without marks is replaced by as many dice that were added as dice that
exploded. -/
theorem evenlyMarked (h : m.Replaces sides die values outcome)
    (hFinished : outcome.finished = true) (hDie : Unmarked [die]) :
    EvenlyMarked outcome.rolls := by
  rcases h.same_or_exploded with
    ⟨die', hDice, hAdded, hExploded⟩ | ⟨-, qualifies, hRan, hDice⟩
  · rw [hDice]
    exact (SameCounts.of_die hAdded hExploded).evenlyMarked hDie.evenlyMarked
  · rw [hFinished] at hRan
    have hInitial : ¬ (die.explode m).isAdditional = true :=
      List.countP_eq_zero.1 hDie.added die (List.mem_singleton_self die)
    rw [hDice, EvenlyMarked, List.countP_cons_of_neg hInitial,
      countP_followers hRan, List.countP_cons_of_pos rfl]

end Modifier.Replaces

namespace Chain.Walked

variable {sides : Sides} {m : Modifier} {rolls : List Die} {values : List Value}
  {outcome : Outcome}

theorem sameCounts (h : Walked (m.Replaces sides) rolls values outcome)
    (hFinished : outcome.finished = true) (hOther : m.isExplosion = false) :
    SameCounts rolls outcome.rolls := by
  induction h with
  | done => exact ⟨rfl, rfl⟩
  | passed hStep _ ih => exact (hStep.sameCounts hOther).append (ih hFinished)
  | stopped => cases hFinished

theorem evenlyMarked (h : Walked (m.Replaces sides) rolls values outcome)
    (hFinished : outcome.finished = true) (hRolls : Unmarked rolls) :
    EvenlyMarked outcome.rolls := by
  induction h with
  | done => rfl
  | @passed die rest _ _ _ _ hStep _ ih =>
      have hSplit : Unmarked ([die] ++ rest) := hRolls
      obtain ⟨hDie, hRest⟩ := hSplit.of_append
      exact (hStep.evenlyMarked rfl hDie).append (ih hFinished hRest)
  | stopped => cases hFinished

end Chain.Walked

/-! ## Lists of modifiers -/

namespace Rolled

variable {set set' : Rolled} {ms : List Modifier} {values : List Value}

/-- Exploded dice are followed by dice that were added. -/
theorem Modified.linked (h : set.Modified ms values (.ok set'))
    (hSet : Linked set.rolls) : Linked set'.rolls := by
  refine h.preserves (Q := fun set => Linked set.rolls) ?_ hSet set' rfl
  intro m _ before _ after hApplied hBefore
  cases hApplied with
  | finished _ hWalked => exact (hWalked.linked rfl hBefore).1

/-- Without an explosion no dice are added and none explode. -/
theorem Modified.sameCounts (h : set.Modified ms values (.ok set'))
    (hNone : ms.filter Modifier.isExplosion = []) :
    SameCounts set.rolls set'.rolls := by
  refine h.preserves (Q := fun set' => SameCounts set.rolls set'.rolls) ?_
    ⟨rfl, rfl⟩ set' rfl
  intro m hMem before _ after hApplied hBefore
  have hOther := List.filter_eq_nil_iff.1 hNone m hMem
  cases hApplied with
  | finished _ hWalked =>
      exact hBefore.trans (hWalked.sameCounts rfl (Bool.eq_false_iff.2 hOther))

/-- A single explosion adds a die for every die that explodes. -/
theorem Modified.evenlyMarked (h : set.Modified ms values (.ok set'))
    (hOne : (ms.filter Modifier.isExplosion).length ≤ 1)
    (hSet : Unmarked set.rolls) : EvenlyMarked set'.rolls := by
  generalize hResult : Except.ok set' = result at h
  induction h with
  | done =>
      cases hResult
      exact hSet.evenlyMarked
  | failed => cases hResult
  | @applied set middle m ms values more result hFirst hRest ih =>
      cases hFirst with
      | finished _ hWalked =>
          by_cases hKind : m.isExplosion = true
          · -- This is the one explosion, and no other follows.
            rw [List.filter_cons_of_pos hKind, List.length_cons] at hOne
            have hNone : ms.filter Modifier.isExplosion = [] :=
              List.eq_nil_of_length_eq_zero (by omega)
            rw [← hResult] at hRest
            exact (hRest.sameCounts hNone).evenlyMarked
              (hWalked.evenlyMarked rfl hSet)
          · rw [List.filter_cons_of_neg hKind] at hOne
            have hStep := hWalked.sameCounts rfl (Bool.eq_false_iff.2 hKind)
            exact ih hOne (hStep.unmarked hSet) hResult

/-! ## Rolls -/

theorem markedBy_ofFaces (dice : Dice) (faces : List Value)
    (ms : List Modifier) : ∀ die ∈ (ofFaces dice faces).rolls, die.MarkedBy ms :=
  List.forall_mem_map.2 fun v _ => Die.markedBy_ofFace ms v

theorem linked_ofFaces (dice : Dice) (faces : List Value) :
    Linked (ofFaces dice faces).rolls :=
  linked_of_not_exploded (List.forall_mem_map.2 fun _ _ => rfl)

theorem unmarked_ofFaces (dice : Dice) (faces : List Value) :
    Unmarked (ofFaces dice faces).rolls :=
  ⟨List.countP_eq_zero.2 (List.forall_mem_map.2 fun _ _ => nofun),
    List.countP_eq_zero.2 (List.forall_mem_map.2 fun _ _ => nofun)⟩

end Rolled

/-- In a set that was rolled, all marks and changes come from modifiers of the
set: dice are added and explode by explosions, are dropped by selections, and are
changed by rerolls and limits. Right behind every die that exploded lies one that
was added. And if there is no more than one explosion among the modifiers, as many
dice were added as exploded. -/
theorem Dice.provenance {dice : Dice} {roller : Roller σ}
    {table last : Table σ} {set : Rolled}
    (h : (dice.roll true).run roller table = (.ok (.ok set), last)) :
    (∀ die ∈ set.rolls, die.MarkedBy dice.modifiers) ∧
    (∀ before die after, set.rolls = before ++ die :: after →
      die.isExploded = true →
        ∃ next more, after = next :: more ∧ next.isAdditional = true) ∧
    ((dice.modifiers.filter Modifier.isExplosion).length ≤ 1 →
      (set.rolls.filter Die.isAdditional).length =
        (set.rolls.filter Die.isExploded).length) := by
  obtain ⟨_, -, -, faces, _, -, -, hModified⟩ :=
    (dice.ensures_roll true).of_run_eq_ok h
  rw [if_pos rfl] at hModified
  refine ⟨?_, ?_, ?_⟩
  · exact hModified.forall_mem
      (fun m hMem _ _ _ hDie => hDie.markedBy hMem)
      (Rolled.markedBy_ofFaces dice faces dice.modifiers) set rfl
  · intro before die after hSplit hExploded
    exact (hModified.linked (Rolled.linked_ofFaces dice faces)).followed hSplit
      hExploded
  · intro hOne
    rw [← List.countP_eq_length_filter, ← List.countP_eq_length_filter]
    exact hModified.evenlyMarked hOne (Rolled.unmarked_ofFaces dice faces)

/-- Two dice show a six and a one. The six explodes twice, the one is thrown
again, and the two that ended the chain is raised to three. -/
theorem Dice.provenance_exploding :
    ∃ (set : Rolled) (last : Table (List Value)),
      ((⟨2, .numbered 6, [.explode none, .reroll none false, .atLeast 3]⟩ :
          Dice).roll true).run Roller.listed (Table.new [6, 1, 6, 2, 5]) =
        (.ok (.ok set), last) ∧
      set.rolls.map Die.text = ["6!", "6!", "2[3]", "5r"] ∧
      (∀ die ∈ set.rolls,
        die.MarkedBy [.explode none, .reroll none false, .atLeast 3]) ∧
      (∀ before die after, set.rolls = before ++ die :: after →
        die.isExploded = true →
          ∃ next more, after = next :: more ∧ next.isAdditional = true) ∧
      (set.rolls.filter Die.isAdditional).length =
        (set.rolls.filter Die.isExploded).length := by
  have hRun : (((⟨2, .numbered 6, [.explode none, .reroll none false,
      .atLeast 3]⟩ : Dice).roll true).run Roller.listed
        (Table.new [6, 1, 6, 2, 5])).1 =
      .ok (.ok ⟨⟨2, .numbered 6, [.explode none, .reroll none false,
          .atLeast 3]⟩,
        [(Die.ofFace 6).explode (.explode none),
          follower (.explode none) (· == 6) 6,
          (follower (.explode none) (· == 6) 2).clamp (.atLeast 3) 3,
          (Die.ofFace 1).change (.reroll none false) 5]⟩) := rfl
  obtain ⟨hMarked, hFollowed, hCounts⟩ := Dice.provenance (Prod.ext hRun rfl)
  exact ⟨_, _, Prod.ext hRun rfl, rfl, hMarked, hFollowed,
    hCounts (Nat.le_refl 1)⟩

end DiceFormula
