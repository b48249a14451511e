import DiceFormula.Proofs.Modifier.Application
import DiceFormula.Proofs.Rolling.Decides

/-!
# The throws of a set, die by die

The values thrown while a set is gone through fall into chains, one for each die;
a die that asks for nothing has an empty one. A chain goes on for as long as its
throws ask for another and ends with the first that does not. If it has not ended
within the limit, it is given up, and the dice behind it have no chain at all.

The chains are told without a budget that is counted down, and a set without what
has been passed; the recursions of chains and walks come to the same.

## Main results

* `ran_true_iff`, `ran_false_iff` — chains that end and chains that are given up.
* `decides_walk` — what decides on a walk are the values that decide on its steps.
* `walked_finished_iff`, `walked_stopped_iff` — a walk to the end, and one that was
  broken off, chain by chain.
-/

namespace DiceFormula

open Rolling

variable {σ : Type}

namespace Chain

/-! ## Chains -/

/-- The throws of a chain that has come to its end: all but the last ask for
another one, and the last does not. -/
def IsComplete (again : Value → Bool) (throws : List Value) : Prop :=
  ∃ front last, throws = front ++ [last] ∧ (∀ v ∈ front, again v = true) ∧
    again last = false

/-- The throws of a chain that is given up: the die asks for it, and a hundred
throws in a row ask for another one. -/
def IsGivenUp (qualifies : Value → Bool) (die : Die) (throws : List Value) : Prop :=
  (die.isKept && qualifies die.face) = true ∧ throws.length = 100 ∧
    ∀ v ∈ throws, qualifies v = true

variable {again : Value → Bool} {budget : Nat} {values throws : List Value}

theorem IsComplete.length_pos (h : IsComplete again throws) :
    1 ≤ throws.length := by
  obtain ⟨front, last, rfl, -⟩ := h
  rw [List.length_append]
  exact Nat.le_add_left 1 _

/-- Where no throw asks for another one, a chain has one throw. -/
theorem isComplete_iff_length_eq_one (h : ∀ v, again v = false) :
    IsComplete again throws ↔ throws.length = 1 := by
  constructor
  · rintro ⟨front, last, rfl, hFront, -⟩
    cases front with
    | nil => rfl
    | cons v front =>
        have hAgain := hFront v List.mem_cons_self
        rw [h v] at hAgain
        cases hAgain
  · intro hLength
    obtain ⟨v, rfl⟩ := List.length_eq_one_iff.1 hLength
    exact ⟨[], v, rfl, nofun, h v⟩

theorem isComplete_cons_iff {v : Value} :
    IsComplete again (v :: throws) ↔
      if again v then IsComplete again throws else throws = [] := by
  constructor
  · rintro ⟨front, last, hSplit, hFront, hLast⟩
    cases front with
    | nil =>
        cases hSplit
        rw [hLast]
        exact if_neg Bool.false_ne_true ▸ rfl
    | cons w front =>
        cases hSplit
        obtain ⟨hFirst, hRest⟩ := List.forall_mem_cons.1 hFront
        rw [if_pos hFirst]
        exact ⟨front, last, rfl, hRest, hLast⟩
  · cases hAgain : again v with
    | false =>
        intro hNil
        rw [if_neg Bool.false_ne_true] at hNil
        exact ⟨[], v, by rw [hNil]; rfl, nofun, hAgain⟩
    | true =>
        intro hRest
        rw [if_pos rfl] at hRest
        obtain ⟨front, last, rfl, hFront, hLast⟩ := hRest
        exact ⟨v :: front, last, rfl, List.forall_mem_cons.2 ⟨hAgain, hFront⟩,
          hLast⟩

theorem ran_zero_iff {finished : Bool} :
    Ran again 0 values finished ↔ values = [] ∧ finished = false := by
  constructor
  · rintro ⟨⟩
    exact ⟨rfl, rfl⟩
  · rintro ⟨rfl, rfl⟩
    exact .givenUp

/-- The first throw of a chain. -/
theorem ran_succ_iff {finished : Bool} :
    Ran again (budget + 1) values finished ↔ ∃ v more, values = v :: more ∧
      if again v then Ran again budget more finished
      else more = [] ∧ finished = true := by
  constructor
  · intro h
    cases h with
    | @ended _ v hEnds => exact ⟨v, [], rfl, by simp [hEnds]⟩
    | @goesOn _ v more _ hGoesOn hRest => exact ⟨v, more, rfl, by simpa [hGoesOn]⟩
  · rintro ⟨v, more, rfl, hMore⟩
    cases hAgain : again v with
    | false =>
        rw [hAgain, if_neg Bool.false_ne_true] at hMore
        obtain ⟨rfl, rfl⟩ := hMore
        exact .ended hAgain
    | true =>
        rw [hAgain, if_pos rfl] at hMore
        exact .goesOn hAgain hMore

/-- A chain ends if it is complete within its budget. -/
theorem ran_true_iff : Ran again budget values true ↔
    IsComplete again values ∧ values.length ≤ budget := by
  induction budget generalizing values with
  | zero =>
      rw [ran_zero_iff]
      refine iff_of_false nofun fun ⟨hComplete, hLength⟩ => ?_
      exact absurd (Nat.le_trans hComplete.length_pos hLength) (by decide)
  | succ budget ih =>
      rw [ran_succ_iff]
      constructor
      · rintro ⟨v, more, rfl, hMore⟩
        rw [isComplete_cons_iff]
        cases hAgain : again v with
        | false =>
            rw [hAgain, if_neg Bool.false_ne_true] at hMore
            rw [if_neg Bool.false_ne_true, hMore.1]
            exact ⟨rfl, Nat.succ_le_succ (Nat.zero_le _)⟩
        | true =>
            rw [hAgain, if_pos rfl] at hMore
            obtain ⟨hComplete, hLength⟩ := ih.1 hMore
            exact ⟨hComplete, Nat.succ_le_succ hLength⟩
      · rintro ⟨hComplete, hLength⟩
        cases values with
        | nil => exact absurd hComplete.length_pos (by decide)
        | cons v more =>
            refine ⟨v, more, rfl, ?_⟩
            rw [isComplete_cons_iff] at hComplete
            cases hAgain : again v with
            | false =>
                rw [hAgain] at hComplete
                exact ⟨hComplete, rfl⟩
            | true =>
                rw [hAgain] at hComplete
                exact ih.2 ⟨hComplete, Nat.le_of_succ_le_succ hLength⟩

/-- A chain is given up if its budget is used up and all throws ask for another
one. -/
theorem ran_false_iff : Ran again budget values false ↔
    values.length = budget ∧ ∀ v ∈ values, again v = true := by
  induction budget generalizing values with
  | zero =>
      rw [ran_zero_iff, List.length_eq_zero_iff]
      constructor
      · rintro ⟨rfl, -⟩
        exact ⟨rfl, nofun⟩
      · rintro ⟨rfl, -⟩
        exact ⟨rfl, rfl⟩
  | succ budget ih =>
      rw [ran_succ_iff]
      constructor
      · rintro ⟨v, more, rfl, hMore⟩
        cases hAgain : again v with
        | false =>
            rw [hAgain] at hMore
            cases hMore.2
        | true =>
            rw [hAgain, if_pos rfl, ih] at hMore
            exact ⟨congrArg Nat.succ hMore.1,
              List.forall_mem_cons.2 ⟨hAgain, hMore.2⟩⟩
      · rintro ⟨hLength, hAll⟩
        cases values with
        | nil => cases hLength
        | cons v more =>
            obtain ⟨hFirst, hRest⟩ := List.forall_mem_cons.1 hAll
            refine ⟨v, more, rfl, ?_⟩
            rw [if_pos hFirst]
            exact ih.2 ⟨Nat.succ.inj hLength, hRest⟩

/-! ### What decides on a chain -/

section Decisions

variable {sides : Sides} {next : Die → Rolling σ Outcome}
  {result : List Value → List Die}

/-- A chain that is over. -/
theorem decides_outcome (rolls : List Die) (finished : Bool) :
    Decides sides (pure ⟨rolls, finished⟩ : Rolling σ Outcome)
      fun values outcome => (values = [] ∧ outcome.finished = finished) ∧
        outcome.rolls = rolls := by
  refine (decides_pure _).congr ?_
  rintro values ⟨rolls', finished'⟩
  rw [Outcome.mk.injEq, and_assoc]
  exact and_congr_right fun _ => And.comm

/-- A chain whose budget is used up. -/
theorem decides_givenUp (rolls : List Die) (hRolls : result [] = rolls) :
    Decides sides (pure ⟨rolls, false⟩ : Rolling σ Outcome)
      fun values outcome => Ran again 0 values outcome.finished ∧
        outcome.rolls = result values := by
  refine (decides_outcome rolls false).congr fun values outcome => ?_
  rw [ran_zero_iff]
  refine and_congr_right fun hNone => ?_
  rw [hNone.1, hRolls]

/-- A chain that throws a die first. What follows is decided by the other values. -/
theorem decides_thrown
    (hNext : ∀ v, Decides sides (next (.ofFace v)) fun more outcome =>
      (if again v then Ran again budget more outcome.finished
        else more = [] ∧ outcome.finished = true) ∧
      outcome.rolls = result (v :: more)) :
    Decides sides (throwDie sides >>= next) fun values outcome =>
      Ran again (budget + 1) values outcome.finished ∧
        outcome.rolls = result values := by
  refine (decides_throwDie_bind hNext).congr fun values outcome => ?_
  rw [ran_succ_iff]
  constructor
  · rintro ⟨v, more, rfl, hRan, hRolls⟩
    exact ⟨⟨v, more, rfl, hRan⟩, hRolls⟩
  · rintro ⟨⟨v, more, rfl, hRan⟩, hRolls⟩
    exact ⟨v, more, rfl, hRan, hRolls⟩

end Decisions

/-! ## Walks -/

variable {P : Die → List Value → Outcome → Prop} {die : Die}
  {rest rolls : List Die} {outcome : Outcome}

theorem walked_nil_iff :
    Walked P [] values outcome ↔ values = [] ∧ outcome = ⟨[], true⟩ := by
  constructor
  · rintro ⟨⟩
    exact ⟨rfl, rfl⟩
  · rintro ⟨rfl, rfl⟩
    exact .done

/-- The first die of a walk. -/
theorem walked_cons_iff : Walked P (die :: rest) values outcome ↔
    ∃ front back first, values = front ++ back ∧ P die front first ∧
      if first.finished then
        ∃ others, Walked P rest back others ∧
          outcome = ⟨first.rolls ++ others.rolls, others.finished⟩
      else back = [] ∧ outcome = ⟨first.rolls ++ rest, false⟩ := by
  constructor
  · intro h
    cases h with
    | @passed _ _ dice front back others hStep hRest =>
        exact ⟨front, back, ⟨dice, true⟩, rfl, hStep, others, hRest, rfl⟩
    | @stopped _ _ dice _ hStep =>
        exact ⟨values, [], ⟨dice, false⟩, (List.append_nil values).symm, hStep,
          rfl, rfl⟩
  · rintro ⟨front, back, ⟨dice, finished⟩, rfl, hStep, hMore⟩
    cases finished with
    | false =>
        obtain ⟨rfl, rfl⟩ := hMore
        rw [List.append_nil]
        exact .stopped hStep
    | true =>
        obtain ⟨others, hRest, rfl⟩ := hMore
        exact .passed hStep hRest

/-- What decides on a walk are the values that decide on its steps. -/
theorem decides_walk {sides : Sides} {step : Die → Rolling σ Outcome}
    (h : ∀ die, Decides sides (step die) (P die)) (rolls : List Die) :
    Decides sides (walk step rolls) (Walked P rolls) := by
  induction rolls with
  | nil =>
      rw [walk_nil]
      exact (decides_pure _).congr fun values outcome => walked_nil_iff.symm
  | cons die rest ih =>
      rw [walk_cons]
      have hNext : ∀ front first, P die front first →
          Decides sides
            (if first.finished then do
                let others ← walk step rest
                return ⟨first.rolls ++ others.rolls, others.finished⟩
              else return ⟨first.rolls ++ rest, false⟩ : Rolling σ Outcome)
            fun back outcome =>
              if first.finished then
                ∃ others, Walked P rest back others ∧
                  outcome = ⟨first.rolls ++ others.rolls, others.finished⟩
              else back = [] ∧ outcome = ⟨first.rolls ++ rest, false⟩ := by
        intro _ first _
        cases first.finished with
        | false => exact decides_pure _
        | true => exact ih.bind_pure
      exact ((h die).bind hNext).congr fun _ _ => walked_cons_iff.symm

/-! ## Walks chain by chain -/

variable {T : Die → List Value → Prop} {grow : Die → List Value → List Die}

/-- A walk to the end is one in which every chain ends. -/
theorem walked_finished_iff {rolls' : List Die}
    (hEnds : ∀ die throws dice,
      P die throws ⟨dice, true⟩ ↔ T die throws ∧ dice = grow die throws) :
    Walked P rolls values ⟨rolls', true⟩ ↔
      ∃ chains, values = chains.flatten ∧ List.Forall₂ T rolls chains ∧
        rolls' = (List.zipWith grow rolls chains).flatten := by
  induction rolls generalizing values rolls' with
  | nil =>
      rw [walked_nil_iff]
      constructor
      · rintro ⟨rfl, ⟨⟩⟩
        exact ⟨[], rfl, .nil, rfl⟩
      · rintro ⟨_, rfl, ⟨⟩, rfl⟩
        exact ⟨rfl, rfl⟩
  | cons die rest ih =>
      rw [walked_cons_iff]
      constructor
      · rintro ⟨front, back, ⟨dice, finished⟩, rfl, hStep, hMore⟩
        cases finished with
        | false => cases hMore.2
        | true =>
            obtain ⟨hThrows, rfl⟩ := (hEnds die front dice).1 hStep
            obtain ⟨⟨others, finished⟩, hRest, hOutcome⟩ := hMore
            cases hOutcome
            obtain ⟨chains, rfl, hChains, rfl⟩ := ih.1 hRest
            exact ⟨front :: chains, rfl, .cons hThrows hChains, rfl⟩
      · rintro ⟨_, rfl, _ | ⟨hThrows, hChains⟩, rfl⟩
        exact ⟨_, _, ⟨_, true⟩, rfl, (hEnds _ _ _).2 ⟨hThrows, rfl⟩,
          ⟨_, true⟩, ih.2 ⟨_, rfl, hChains, rfl⟩, rfl⟩

/-- A walk is broken off at the first die whose chain does not end, with the dice
behind it as they were. -/
theorem walked_stopped_iff {rolls' : List Die}
    (hEnds : ∀ die throws dice,
      P die throws ⟨dice, true⟩ ↔ T die throws ∧ dice = grow die throws) :
    Walked P rolls values ⟨rolls', false⟩ ↔
      ∃ before die after chains throws dice, rolls = before ++ die :: after ∧
        values = chains.flatten ++ throws ∧ List.Forall₂ T before chains ∧
        P die throws ⟨dice, false⟩ ∧
        rolls' = (List.zipWith grow before chains).flatten ++ dice ++ after := by
  induction rolls generalizing values rolls' with
  | nil =>
      rw [walked_nil_iff]
      refine iff_of_false nofun ?_
      rintro ⟨before, die, after, -, -, -, hSplit, -⟩
      exact absurd hSplit.symm (List.append_ne_nil_of_right_ne_nil before nofun)
  | cons die rest ih =>
      rw [walked_cons_iff]
      constructor
      · rintro ⟨front, back, ⟨dice, finished⟩, rfl, hStep, hMore⟩
        cases finished with
        | false =>
            obtain ⟨rfl, ⟨⟩⟩ := hMore
            exact ⟨[], die, rest, [], front, dice, rfl, List.append_nil front, .nil,
              hStep, rfl⟩
        | true =>
            obtain ⟨hThrows, rfl⟩ := (hEnds die front dice).1 hStep
            obtain ⟨⟨others, finished⟩, hRest, hOutcome⟩ := hMore
            cases hOutcome
            obtain ⟨before, last, after, chains, throws, dice, rfl, rfl, hChains,
              hLast, rfl⟩ := ih.1 hRest
            refine ⟨die :: before, last, after, front :: chains, throws, dice, rfl,
              ?_, .cons hThrows hChains, hLast, ?_⟩
            · rw [List.flatten_cons, List.append_assoc]
            · rw [List.zipWith_cons_cons, List.flatten_cons]
              simp only [List.append_assoc]
      · rintro ⟨before, last, after, chains, throws, dice, hSplit, rfl, hChains,
          hLast, rfl⟩
        cases hChains with
        | nil =>
            cases hSplit
            exact ⟨throws, [], ⟨dice, false⟩, (List.append_nil throws).symm, hLast,
              rfl, rfl⟩
        | @cons _ front before chains hThrows hChains =>
            cases hSplit
            refine ⟨front, chains.flatten ++ throws, ⟨grow die front, true⟩, ?_,
              (hEnds _ _ _).2 ⟨hThrows, rfl⟩, ⟨_, false⟩,
              ih.2 ⟨before, last, after, chains, throws, dice, rfl, rfl, hChains,
                hLast, rfl⟩, ?_⟩
            · rw [List.flatten_cons, List.append_assoc]
            · rw [List.zipWith_cons_cons, List.flatten_cons]
              simp only [List.append_assoc]

end Chain

/-! ## Modifiers -/

/-- Every face the die can show passes the test. -/
def Sides.EveryFace (sides : Sides) (test : Value → Bool) : Prop :=
  ∀ v, sides.minFace ≤ v → v ≤ sides.maxFace → test v = true

theorem Sides.all_faces_iff {sides : Sides} {test : Value → Bool} :
    sides.faces.all test = true ↔ sides.EveryFace test := by
  rw [List.all_eq_true]
  constructor
  · intro h v hMin hMax
    exact h v (mem_faces.2 ⟨hMin, hMax⟩)
  · intro h v hMem
    exact h v (mem_faces.1 hMem).1 (mem_faces.1 hMem).2

namespace Modifier

open Chain

variable {m : Modifier} {set set' : Rolled} {values : List Value} {dice : Dice}

theorem applied_none_iff : m.Applied set values (set', none) ↔
    m.isEndless set.dice.sides = false ∧
      ∃ rolls, Walked (m.Replaces set.dice.sides) set.rolls values ⟨rolls, true⟩ ∧
        set' = { set with rolls } := by
  constructor
  · rintro ⟨⟩
    exact ⟨‹_›, _, ‹_›, rfl⟩
  · rintro ⟨hEndless, rolls, hWalked, rfl⟩
    exact .finished hEndless hWalked

theorem applied_infiniteRolls_iff :
    m.Applied set values (set', some (.infiniteRolls dice)) ↔
      m.isEndless set.dice.sides = true ∧ values = [] ∧ set' = set ∧
        dice = set.dice := by
  constructor
  · rintro ⟨⟩
    exact ⟨‹_›, rfl, rfl, rfl⟩
  · rintro ⟨hEndless, rfl, rfl, rfl⟩
    exact .refused hEndless

theorem applied_rollLimit_iff :
    m.Applied set values (set', some (.rollLimit dice)) ↔
      m.isEndless set.dice.sides = false ∧
        ∃ rolls, Walked (m.Replaces set.dice.sides) set.rolls values
          ⟨rolls, false⟩ ∧ set' = { set with rolls := m.remainder rolls } ∧
          dice = set.dice := by
  constructor
  · rintro ⟨⟩
    exact ⟨‹_›, _, ‹_›, rfl, rfl⟩
  · rintro ⟨hEndless, rolls, hWalked, rfl, rfl⟩
    exact .givenUp hEndless hWalked

/-- A modifier that is refused comes to nothing else. -/
theorem applied_iff_of_endless (h : m.isEndless set.dice.sides = true)
    {result : Rolled × Option Dice.Error} :
    m.Applied set values result ↔
      values = [] ∧ result = (set, some (.infiniteRolls set.dice)) := by
  constructor
  · rintro (_ | ⟨hNot, -⟩ | ⟨hNot, -⟩)
    · exact ⟨rfl, rfl⟩
    · rw [h] at hNot
      cases hNot
    · rw [h] at hNot
      cases hNot
  · rintro ⟨rfl, rfl⟩
    exact .refused h

/-- A modifier that is not refused comes to what the walk through the set comes
to. -/
theorem applied_iff_of_not_endless (h : m.isEndless set.dice.sides = false)
    {result : Rolled × Option Dice.Error} :
    m.Applied set values result ↔
      ∃ outcome, Walked (m.Replaces set.dice.sides) set.rolls values outcome ∧
        result = if outcome.finished then ({ set with rolls := outcome.rolls }, none)
          else ({ set with rolls := m.remainder outcome.rolls },
            some (.rollLimit set.dice)) := by
  constructor
  · rintro (hEndless | ⟨-, hWalked⟩ | ⟨-, hWalked⟩)
    · rw [h] at hEndless
      cases hEndless
    · exact ⟨_, hWalked, rfl⟩
    · exact ⟨_, hWalked, rfl⟩
  · rintro ⟨⟨rolls, finished⟩, hWalked, rfl⟩
    cases finished with
    | false => exact .givenUp h hWalked
    | true => exact .finished h hWalked

/-! ### Runs

What a modifier comes to with a roller, chain by chain, once it is told with which
throws the chain of a die ends and with which it is given up. -/

section Runs

variable {roller : Roller σ} {table last : Table σ}
  {Ends GivenUp : Die → List Value → Prop} {grow left : Die → List Value → List Die}

/-- A modifier is refused before anything has been thrown. -/
theorem run_apply_eq_infiniteRolls_iff
    (h : Decides set.dice.sides
      (m.apply set : Rolling σ (Rolled × Option Dice.Error)) (m.Applied set)) :
    m.apply set roller table = (.ok (set', some (.infiniteRolls dice)), last) ↔
      m.isEndless set.dice.sides = true ∧ set' = set ∧ dice = set.dice ∧
        last = table := by
  rw [h roller table last]
  simp only [applied_infiniteRolls_iff]
  constructor
  · rintro ⟨_, hDrawn, hEndless, rfl, rfl, rfl⟩
    exact ⟨hEndless, rfl, rfl, Table.Drawn.nil_iff.1 hDrawn⟩
  · rintro ⟨hEndless, rfl, rfl, rfl⟩
    exact ⟨[], .none last, hEndless, rfl, rfl, rfl⟩

/-- A modifier goes through the whole set if every chain ends. -/
theorem run_apply_eq_ok_iff
    (h : Decides set.dice.sides
      (m.apply set : Rolling σ (Rolled × Option Dice.Error)) (m.Applied set))
    (hEnds : ∀ die throws dice, m.Replaces set.dice.sides die throws ⟨dice, true⟩ ↔
      Ends die throws ∧ dice = grow die throws) :
    m.apply set roller table = (.ok (set', none), last) ↔
      m.isEndless set.dice.sides = false ∧
        ∃ chains, List.Forall₂ Ends set.rolls chains ∧
          table.Drawn roller set.dice.sides chains.flatten last ∧
          set' = { set with
            rolls := (List.zipWith grow set.rolls chains).flatten } := by
  rw [h roller table last]
  simp only [applied_none_iff, walked_finished_iff hEnds]
  constructor
  · rintro ⟨_, hDrawn, hEndless, _, ⟨chains, rfl, hChains, rfl⟩, rfl⟩
    exact ⟨hEndless, chains, hChains, hDrawn, rfl⟩
  · rintro ⟨hEndless, chains, hChains, hDrawn, rfl⟩
    exact ⟨_, hDrawn, hEndless, _, ⟨chains, rfl, hChains, rfl⟩, rfl⟩

/-- A modifier is given up if some chains end and the next is given up. -/
theorem run_apply_eq_rollLimit_iff
    (h : Decides set.dice.sides
      (m.apply set : Rolling σ (Rolled × Option Dice.Error)) (m.Applied set))
    (hEnds : ∀ die throws dice, m.Replaces set.dice.sides die throws ⟨dice, true⟩ ↔
      Ends die throws ∧ dice = grow die throws)
    (hGivenUp : ∀ die throws dice,
      m.Replaces set.dice.sides die throws ⟨dice, false⟩ ↔
        GivenUp die throws ∧ dice = left die throws) :
    m.apply set roller table = (.ok (set', some (.rollLimit dice)), last) ↔
      m.isEndless set.dice.sides = false ∧
        ∃ before die after chains throws, set.rolls = before ++ die :: after ∧
          List.Forall₂ Ends before chains ∧ GivenUp die throws ∧
          table.Drawn roller set.dice.sides (chains.flatten ++ throws) last ∧
          set' = { set with
            rolls := m.remainder ((List.zipWith grow before chains).flatten ++
              left die throws ++ after) } ∧
          dice = set.dice := by
  rw [h roller table last]
  simp only [applied_rollLimit_iff, walked_stopped_iff hEnds, hGivenUp]
  constructor
  · rintro ⟨_, hDrawn, hEndless, _, ⟨before, die, after, chains, throws, _, hSplit,
      rfl, hChains, ⟨hLast, rfl⟩, rfl⟩, rfl, rfl⟩
    exact ⟨hEndless, before, die, after, chains, throws, hSplit, hChains, hLast,
      hDrawn, rfl, rfl⟩
  · rintro ⟨hEndless, before, die, after, chains, throws, hSplit, hChains, hLast,
      hDrawn, rfl, rfl⟩
    exact ⟨_, hDrawn, hEndless, _, ⟨before, die, after, chains, throws, _, hSplit,
      rfl, hChains, ⟨hLast, rfl⟩, rfl⟩, rfl, rfl⟩

/-- A modifier fails for one of two reasons. -/
theorem eq_or_eq_of_run_apply
    (h : Decides set.dice.sides
      (m.apply set : Rolling σ (Rolled × Option Dice.Error)) (m.Applied set))
    {err : Dice.Error} (hRun : m.apply set roller table = (.ok (set', some err), last)) :
    err = .infiniteRolls set.dice ∨ err = .rollLimit set.dice := by
  obtain ⟨_, -, hApplied⟩ := (h roller table last _).1 hRun
  cases hApplied with
  | refused => exact .inl rfl
  | givenUp => exact .inr rfl

end Runs

/-- A modifier halts only where the roller gives no further value. -/
theorem draw_eq_error_of_apply {roller : Roller σ} {table last : Table σ}
    {halt : Halt} (h : m.apply set roller table = (.error halt, last)) :
    roller.draw last.state set.dice.sides.minFace set.dice.sides.maxFace =
      .error halt := by
  obtain ⟨drawn, -, -, -, hHalt⟩ := m.ensures_apply set roller table
  rw [h] at hHalt
  obtain ⟨_, _, ⟨rfl, rfl⟩, hDraw⟩ := hHalt halt rfl
  exact hDraw

end Modifier

end DiceFormula
