import DiceFormula.Proofs.Dice.Lockstep
import DiceFormula.Proofs.Expr.Alike

/-!
# What evaluating an expression does

The tree says how the results of its sets are put together; what is thrown, and
in which order, depends only on the list of its sets. So an evaluation is a walk
along that list, and it is told by what one set does alone: where the roller
was left by the set before, the next one begins.

## Main results

* `sets_mapM` — a traversal of a tree is one of the list of its sets.
* `run_mapM_rollSet_eq_ok_iff`, `run_mapM_rollSet_eq_stop_iff` — the runs along
  a list of sets.
* `evaluate_in_turn` — what an evaluation comes to, and what it leaves on the
  table.
* `agree_evaluate`, `run_evaluate_eq` — evaluations in lockstep.
* `ensures_evaluate` — an evaluation asks for faces of its sets only.
-/

namespace DiceFormula.Expr

variable {δ ε ζ σ τ : Type}

/-! ## The sets of a tree -/

theorem sets_mapM {m : Type → Type} [Monad m] [LawfulMonad m] (f : δ → m ε)
    (e : Expr δ) : sets <$> e.mapM f = e.sets.mapM f := by
  induction e with
  | num n => simp [mapM, sets]
  | dice d => simp [mapM, sets]
  | group e ih => simp [mapM, sets, ← ih]
  | neg e ih => simp [mapM, sets, ← ih]
  | binary op a b iha ihb =>
      simp [mapM, sets, ← iha, ← ihb]

/-! ## Runs along a list of sets -/

/-- What an evaluation does at a set of dice. -/
def rollSet (dice : Dice) : ExceptT EvalError (Rolling σ) Rolled :=
  ExceptT.adapt (EvalError.mk dice) (dice.roll true)

/-- The sets of dice are rolled one after the other. Each is rolled as it is on a
table of its own, from the state of the roller that the one before has left, and
nothing but that is done to the table. -/
inductive InTurn (roller : Roller σ) :
    Table σ → List Dice → List Rolled → Table σ → Prop
  | nil (table : Table σ) : InTurn roller table [] [] table
  | cons {table alone last : Table σ} {dice : Dice} {more : List Dice}
      {set : Rolled} {sets : List Rolled}
      (hRoll : (dice.roll true).run roller (.new table.state) =
        (.ok (.ok set), alone))
      (hMore : InTurn roller (table.append alone) more sets last) :
      InTurn roller table (dice :: more) (set :: sets) last

/-- The sets in front of `dice` are rolled one after the other, and then this one
is rolled alone with the given result. The sets behind it are not. -/
def StopsAt (roller : Roller σ) (table : Table σ) (sets : List Dice)
    (dice : Dice) (result : Except Halt (Except Dice.Error Rolled))
    (last : Table σ) : Prop :=
  ∃ before after rolled middle alone, sets = before ++ dice :: after ∧
    InTurn roller table before rolled middle ∧
    (dice.roll true).run roller (.new middle.state) = (result, alone) ∧
    last = middle.append alone

variable {roller : Roller σ} {table last : Table σ} {dice : Dice}

theorem run_rollSet_eq_ok_iff {set : Rolled} :
    (rollSet dice).run roller table = (.ok (.ok set), last) ↔
      ∃ alone, (dice.roll true).run roller (.new table.state) =
        (.ok (.ok set), alone) ∧ last = table.append alone := by
  rw [rollSet, Rolling.run_adapt_eq_ok_iff, Dice.run_roll_eq_iff]

theorem run_rollSet_eq_error_iff {err : EvalError} :
    (rollSet dice).run roller table = (.ok (.error err), last) ↔
      err.dice = dice ∧
        ∃ alone, (dice.roll true).run roller (.new table.state) =
          (.ok (.error err.cause), alone) ∧ last = table.append alone := by
  rw [rollSet, Rolling.run_adapt_eq_error_iff]
  constructor
  · rintro ⟨cause, hRoll, rfl⟩
    exact ⟨rfl, Dice.run_roll_eq_iff.1 hRoll⟩
  · rintro ⟨rfl, hRoll⟩
    exact ⟨err.cause, Dice.run_roll_eq_iff.2 hRoll, rfl⟩

theorem run_rollSet_eq_halt_iff {halt : Halt} :
    (rollSet dice).run roller table = (.error halt, last) ↔
      ∃ alone, (dice.roll true).run roller (.new table.state) =
        (.error halt, alone) ∧ last = table.append alone := by
  rw [rollSet, Rolling.run_adapt_eq_halt_iff, Dice.run_roll_eq_iff]

theorem run_mapM_rollSet_eq_ok_iff {sets : List Dice} {rolled : List Rolled} :
    (sets.mapM rollSet).run roller table = (.ok (.ok rolled), last) ↔
      InTurn roller table sets rolled last := by
  induction sets generalizing table rolled with
  | nil =>
      rw [List.mapM_nil, Rolling.run_pure]
      constructor
      · rintro ⟨⟩
        exact .nil _
      · rintro ⟨⟩
        rfl
  | cons dice more ih =>
      rw [List.mapM_cons, Rolling.run_bind_eq_ok_iff]
      constructor
      · rintro ⟨set, middle, hSet, hRest⟩
        obtain ⟨sets, _, hMore, hPure⟩ := Rolling.run_bind_eq_ok_iff.1 hRest
        rw [Rolling.run_pure] at hPure
        cases hPure
        obtain ⟨alone, hRoll, rfl⟩ := run_rollSet_eq_ok_iff.1 hSet
        exact .cons hRoll (ih.1 hMore)
      · rintro (_ | ⟨hRoll, hMore⟩)
        refine ⟨_, _, run_rollSet_eq_ok_iff.2 ⟨_, hRoll, rfl⟩, ?_⟩
        exact Rolling.run_bind_eq_ok_iff.2 ⟨_, _, ih.2 hMore, rfl⟩

/-- A run along a list that does not succeed is broken off at one of its sets:
those in front of it are rolled, and those behind it are not. -/
theorem run_mapM_rollSet_eq_stop_iff {sets : List Dice}
    {stop : Except Halt EvalError} :
    (sets.mapM rollSet).run roller table = (stop.map .error, last) ↔
      ∃ before dice after rolled middle, sets = before ++ dice :: after ∧
        InTurn roller table before rolled middle ∧
        (rollSet dice).run roller middle = (stop.map .error, last) := by
  induction sets generalizing table with
  | nil =>
      rw [List.mapM_nil, Rolling.run_pure]
      constructor
      · intro hPure
        cases stop <;> cases hPure
      · rintro ⟨before, _, _, _, _, hSplit, _⟩
        cases before <;> cases hSplit
  | cons dice more ih =>
      rw [List.mapM_cons, Rolling.run_bind_eq_stop_iff]
      constructor
      · -- Either the first set stops the run, or it has been rolled and one of
        -- the others does.
        rintro (hSet | ⟨set, _, hSet, hRest⟩)
        · exact ⟨[], dice, more, [], table, rfl, .nil table, hSet⟩
        · rcases Rolling.run_bind_eq_stop_iff.1 hRest with hMore | ⟨_, _, _, hPure⟩
          · obtain ⟨before, dice', after, rolled, middle, rfl, hBefore, hStop⟩ :=
              ih.1 hMore
            obtain ⟨alone, hRoll, rfl⟩ := run_rollSet_eq_ok_iff.1 hSet
            exact ⟨dice :: before, dice', after, set :: rolled, middle, rfl,
              .cons hRoll hBefore, hStop⟩
          · rw [Rolling.run_pure] at hPure
            cases stop <;> cases hPure
      · rintro ⟨_, dice', after, _, middle, hSplit, _ | ⟨hRoll, hBefore⟩, hStop⟩
        · cases hSplit
          exact .inl hStop
        · cases hSplit
          have hMore := ih.2 ⟨_, dice', after, _, middle, rfl, hBefore, hStop⟩
          exact .inr ⟨_, _, run_rollSet_eq_ok_iff.2 ⟨_, hRoll, rfl⟩,
            Rolling.run_bind_eq_stop_iff.2 (.inl hMore)⟩

/-! ## Evaluations -/

theorem run_evaluate_eq_ok_iff {e : Expr Dice} {evaluated : Evaluated} :
    e.evaluate.run roller table = (.ok (.ok evaluated), last) ↔
      Alike (fun dice set => set.dice = dice) e evaluated ∧
        InTurn roller table e.sets evaluated.sets last := by
  rw [← run_mapM_rollSet_eq_ok_iff, ← sets_mapM, Rolling.run_map_eq_ok_iff]
  constructor
  · intro h
    refine ⟨(Alike.of_evaluate h).mono ?_, evaluated, h, rfl⟩
    rintro dice set ⟨_, _, hRoll⟩
    exact Dice.dice_eq_of_run_roll hRoll
  · rintro ⟨hAlike, evaluated', h, hSets⟩
    rw [(Alike.of_evaluate h).eq_of_sets hAlike hSets] at h
    exact h

theorem run_evaluate_eq_stop_iff {e : Expr Dice} (stop : Except Halt EvalError) :
    e.evaluate.run roller table = (stop.map .error, last) ↔
      ∃ before dice after rolled middle, e.sets = before ++ dice :: after ∧
        InTurn roller table before rolled middle ∧
        (rollSet dice).run roller middle = (stop.map .error, last) := by
  rw [← run_mapM_rollSet_eq_stop_iff, ← sets_mapM, Rolling.run_map_eq_stop_iff]
  rfl

/-- To evaluate an expression is to roll its sets of dice in turn, from left to
right. If all of them can be rolled, the answer is the expression with every set
in its place, and it holds the dice it was rolled for. If one cannot, the answer
is an error that holds the first such set and its own error; and if the roller
halts, then so it does at a set. In both cases nothing is thrown for the sets
behind that one, and in no case is anything else thrown. -/
theorem evaluate_in_turn (e : Expr Dice) (roller : Roller σ)
    (table last : Table σ) :
    (∀ evaluated, e.evaluate.run roller table = (.ok (.ok evaluated), last) ↔
      Alike (fun dice set => set.dice = dice) e evaluated ∧
        InTurn roller table e.sets evaluated.sets last) ∧
    (∀ err, e.evaluate.run roller table = (.ok (.error err), last) ↔
      StopsAt roller table e.sets err.dice (.ok (.error err.cause)) last) ∧
    ∀ halt, e.evaluate.run roller table = (.error halt, last) ↔
      ∃ dice, StopsAt roller table e.sets dice (.error halt) last := by
  refine ⟨fun _ => run_evaluate_eq_ok_iff, fun err => ?_, fun halt => ?_⟩
  · refine (run_evaluate_eq_stop_iff (.ok err)).trans ?_
    constructor
    · rintro ⟨before, dice, after, rolled, middle, hSplit, hBefore, hStop⟩
      obtain ⟨rfl, alone, hRoll, hLast⟩ := run_rollSet_eq_error_iff.1 hStop
      exact ⟨before, after, rolled, middle, alone, hSplit, hBefore, hRoll, hLast⟩
    · rintro ⟨before, after, rolled, middle, alone, hSplit, hBefore, hRoll, hLast⟩
      exact ⟨before, err.dice, after, rolled, middle, hSplit, hBefore,
        run_rollSet_eq_error_iff.2 ⟨rfl, alone, hRoll, hLast⟩⟩
  · refine (run_evaluate_eq_stop_iff (.error halt)).trans ?_
    constructor
    · rintro ⟨before, dice, after, rolled, middle, hSplit, hBefore, hStop⟩
      obtain ⟨alone, hRoll, hLast⟩ := run_rollSet_eq_halt_iff.1 hStop
      exact ⟨dice, before, after, rolled, middle, alone, hSplit, hBefore, hRoll,
        hLast⟩
    · rintro ⟨dice, before, after, rolled, middle, alone, hSplit, hBefore, hRoll,
        hLast⟩
      exact ⟨before, dice, after, rolled, middle, hSplit, hBefore,
        run_rollSet_eq_halt_iff.2 ⟨alone, hRoll, hLast⟩⟩

/-! ## Evaluations in lockstep -/

section Lockstep

variable {κ : Type} {runs : Lockstep σ τ} {asks : Value → Value → Prop}

/-- Traversals go on together if their steps do at every set. -/
theorem agree_mapM {f : δ → ExceptT κ (Rolling σ) ε}
    {g : δ → ExceptT κ (Rolling τ) ε} {e : Expr δ}
    (h : ∀ d ∈ e.sets, runs.Agree (f d).run (g d).run) :
    runs.Agree (e.mapM f).run (e.mapM g).run := by
  induction e with
  | num n => exact Lockstep.agree_pure _
  | dice d =>
      exact (h d (by simp [sets])).run_bind fun _ => Lockstep.agree_pure _
  | group e ih => exact (ih h).run_bind fun _ => Lockstep.agree_pure _
  | neg e ih => exact (ih h).run_bind fun _ => Lockstep.agree_pure _
  | binary op a b iha ihb =>
      have hLeft := iha fun d hd => h d (List.mem_append_left _ hd)
      have hRight := ihb fun d hd => h d (List.mem_append_right _ hd)
      exact hLeft.run_bind fun _ => hRight.run_bind fun _ =>
        Lockstep.agree_pure _

/-- Evaluations go on together if the draws for the faces of every set do. -/
theorem agree_evaluate (hRuns : runs.Keeps asks) {e : Expr Dice}
    (hAsks : ∀ d ∈ e.sets, asks d.sides.minFace d.sides.maxFace) :
    runs.Agree (e.evaluate : ExceptT EvalError (Rolling σ) Evaluated).run
      (e.evaluate : ExceptT EvalError (Rolling τ) Evaluated).run :=
  agree_mapM fun d hd =>
    (Dice.agree_roll hRuns (hAsks d hd) true).run_adapt

/-- What an evaluation does on a table it does alone, on top of what was
there. -/
theorem run_evaluate_eq (e : Expr Dice) (roller : Roller σ) (table : Table σ) :
    e.evaluate.run roller table =
      ((e.evaluate.run roller (.new table.state)).1,
        table.append (e.evaluate.run roller (.new table.state)).2) :=
  Lockstep.eq_of_agree_onTop
    (agree_evaluate (Lockstep.onTop_keeps roller table) fun _ _ => trivial)

end Lockstep

/-! ## What an evaluation asks for -/

section Ensures

variable {κ : Type} {asks : Value → Value → Prop}

/-- A traversal asks for what the steps at its sets ask for. -/
theorem ensures_mapM {e : Expr δ} {f : δ → ExceptT κ (Rolling σ) ε}
    (h : ∀ d ∈ e.sets, Rolling.Ensures asks (f d).run fun _ _ => True) :
    Rolling.Ensures asks (e.mapM f).run fun _ _ => True := by
  induction e with
  | num n => exact Rolling.ensures_pure trivial
  | dice d =>
      exact (h d (by simp [sets])).run_bind (fun _ _ _ => trivial)
        fun _ _ _ => Rolling.ensures_pure trivial
  | group e ih =>
      exact (ih h).run_bind (fun _ _ _ => trivial)
        fun _ _ _ => Rolling.ensures_pure trivial
  | neg e ih =>
      exact (ih h).run_bind (fun _ _ _ => trivial)
        fun _ _ _ => Rolling.ensures_pure trivial
  | binary op a b iha ihb =>
      have hLeft := iha fun d hd => h d (List.mem_append_left _ hd)
      have hRight := ihb fun d hd => h d (List.mem_append_right _ hd)
      exact hLeft.run_bind (fun _ _ _ => trivial) fun _ _ _ =>
        hRight.run_bind (fun _ _ _ => trivial)
          fun _ _ _ => Rolling.ensures_pure trivial

/-- An evaluation asks for faces of its sets only, and halts only where the
roller gives none. -/
theorem ensures_evaluate {e : Expr Dice}
    (hAsks : ∀ d ∈ e.sets, asks d.sides.minFace d.sides.maxFace) :
    Rolling.Ensures asks
      (e.evaluate : ExceptT EvalError (Rolling σ) Evaluated).run
      fun _ _ => True := by
  refine ensures_mapM fun d hd => ?_
  have hRoll := (d.ensures_roll (σ := σ) true).run_adapt (f := EvalError.mk d)
  refine (hRoll.widen fun lo hi hFaces => ?_).mono fun _ _ _ => trivial
  rw [hFaces.1, hFaces.2]
  exact hAsks d hd

end Ensures

end DiceFormula.Expr
