import DiceFormula.Proofs.Expr.Evaluation
import DiceFormula.Proofs.Formula.Roll
import DiceFormula.Proofs.Notation.RoundTrip

/-!
# Nothing halts but the roller

A roll can be broken off in two ways of its own: by asking for a value of an
interval that has none, and by setting a mark twice that a die can bear once.
Neither happens. Every set of dice in an expression that was read has a face,
so the roller is only asked for values there are; and whatever marks the dice
of a set bear, modifiers drop dice that are in the total and add dice that were
just thrown.

## Main results

* `ensures_roll` — a roll asks only for values of intervals that have some.
* `Rolled.ensures_applyEach` — modifiers halt only where the roller does, on any
  set.
* `never_halts` — both together.
-/

namespace DiceFormula

open Rolling

variable {σ : Type}

/-! ## Expressions -/

/-- A set of dice that can be written has a face. -/
theorem Dice.Writable.minFace_le_maxFace {d : Dice} (h : d.Writable) :
    d.sides.minFace ≤ d.sides.maxFace := by
  cases hSides : d.sides with
  | numbered n =>
      have hPos := h.sides_pos n hSides
      have hMax := Sides.toInt_maxFace_numbered n
      rw [Int32.le_iff_toInt_le, hMax]
      show (1 : Int) ≤ n.toNat
      omega
  | fate => decide
  | percentile => decide

namespace Expr

/-- The sets of an expression that can be written can be written. -/
theorem Writable.of_mem_sets {e : Expr Dice} (h : e.Writable) :
    ∀ d ∈ e.sets, d.Writable := by
  induction e with
  | num n => simp [sets]
  | dice d =>
      intro d' hd'
      rw [List.mem_singleton.1 hd']
      exact h
  | group e ih => exact ih h
  | neg e ih => exact ih h
  | binary op a b iha ihb =>
      intro d hd
      exact (List.mem_append.1 hd).elim (iha h.1 d) (ihb h.2.1 d)

end Expr

/-! ## Formulas -/

namespace Formula

/-- A formula that was read has an expression that can be written. -/
theorem writable_of_read {text : String} {formula : Formula}
    (h : read text = .ok formula) : formula.expr.Writable :=
  (Expr.read?_eq_some_iff.1 (read_eq_ok_iff.1 h).2).writable

theorem ensures_rollRead {formula : Formula} (h : formula.expr.Writable) :
    Ensures (· ≤ ·) (rollRead formula : ExceptT Error (Rolling σ) Outcome).run
      fun _ _ => True := by
  unfold rollRead
  refine (ensures_note _).run_lift_bind fun _ _ _ => ?_
  have hEvaluate := Expr.ensures_evaluate (σ := σ) fun d hd =>
    (h.of_mem_sets d hd).minFace_le_maxFace
  refine hEvaluate.run_adapt.run_bind (fun _ _ _ => trivial) ?_
  intro _ evaluated _
  refine (ensures_adapt_pure _ _).run_bind (fun _ _ _ => trivial) ?_
  intro _ total _
  exact (ensures_note _).run_lift_bind fun _ _ _ => ensures_pure trivial

/-- A roll asks only for values of intervals that have some, and halts only
where the roller gives none. -/
theorem ensures_roll (text : String) :
    Ensures (· ≤ ·) (roll text : ExceptT Error (Rolling σ) Outcome).run
      fun _ _ => True := by
  have hRoll : (roll text : ExceptT Error (Rolling σ) Outcome) =
      ExceptT.lift (ofLogged (readLogged text)) >>= fun read =>
        ExceptT.adapt Error.refused (ExceptT.mk (pure read)) >>= rollRead := rfl
  rw [hRoll]
  refine (ensures_ofLogged _).run_lift_bind ?_
  rintro _ _ ⟨rfl, rfl⟩
  rw [value_readLogged]
  refine (ensures_adapt_pure _ _).run_bind (fun _ _ _ => trivial) ?_
  rintro _ formula ⟨-, hFormula⟩
  cases hText : read text with
  | error cause =>
      rw [hText] at hFormula
      cases hFormula
  | ok formula' =>
      rw [hText] at hFormula
      cases hFormula
      exact ensures_rollRead (writable_of_read hText)

end Formula

/-! ## Modifiers -/

/-- Applies modifiers one after the other to what the one before has left,
whether or not that one failed. -/
def Rolled.applyEach (set : Rolled) : List Modifier → Rolling σ Rolled
  | [] => return set
  | m :: ms => do
    let (set, _) ← m.apply set
    set.applyEach ms

/-- Modifiers halt only where the roller gives no face, whatever has happened to
the dice before. -/
theorem Rolled.ensures_applyEach (set : Rolled) (ms : List Modifier) :
    Ensures set.dice.sides.Asks (set.applyEach ms : Rolling σ Rolled)
      fun _ set' => set'.dice = set.dice := by
  induction ms generalizing set with
  | nil => exact ensures_pure rfl
  | cons m ms ih =>
      rw [applyEach]
      refine (m.ensures_apply set).bind ?_
      rintro _ ⟨set', _⟩ hApplied
      have hMore := ih set'
      rwa [hApplied.dice_eq] at hMore

/-! ## Halts -/

/-- The roller gives some value of every interval that has one, be it a value
of the interval or not. -/
def Roller.Answers (roller : Roller σ) : Prop :=
  ∀ state lo hi, lo ≤ hi → ∃ v next, roller.draw state lo hi = .ok (v, next)

/-- Nothing halts but the roller. If the roller gives a value of every interval
that has one, every formula is rolled to an outcome or an error, and only such
intervals are asked for. And any modifiers, applied one after the other to any
set, halt only if the roller gives no face: they never add or drop a die that
has been added or dropped. -/
theorem never_halts :
    (∀ {σ : Type} (roller : Roller σ), roller.Answers →
      ∀ (text : String) (table : Table σ), ∃ result last, ∃ drawn : List Draw,
        (Formula.roll text).run roller table = (.ok result, last) ∧
          last.draws = table.draws ++ drawn ∧
          ∀ draw ∈ drawn, draw.lo ≤ draw.hi) ∧
    ∀ {σ : Type} (roller : Roller σ) (set : Rolled) (ms : List Modifier)
      (table last : Table σ) (halt : Halt),
      set.applyEach ms roller table = (.error halt, last) →
        roller.draw last.state set.dice.sides.minFace set.dice.sides.maxFace =
          .error halt := by
  constructor
  · intro σ roller hAnswers text table
    obtain ⟨drawn, hDraws, hAsks, -, hHalt⟩ := Formula.ensures_roll text roller table
    rcases hRun : (Formula.roll text).run roller table with ⟨halt | result, last⟩
    · rw [hRun] at hHalt
      obtain ⟨lo, hi, hLe, hDraw⟩ := hHalt halt rfl
      obtain ⟨v, next, hAnswer⟩ := hAnswers last.state lo hi hLe
      rw [hDraw] at hAnswer
      cases hAnswer
    · rw [hRun] at hDraws
      exact ⟨result, last, drawn, rfl, hDraws, hAsks⟩
  · intro σ roller set ms table last halt hRun
    obtain ⟨_, -, -, -, hHalt⟩ := set.ensures_applyEach ms roller table
    rw [hRun] at hHalt
    obtain ⟨_, _, ⟨rfl, rfl⟩, hDraw⟩ := hHalt halt rfl
    exact hDraw

/-- With a roller that always gives seven, a formula is rolled whose dice are
thrown again for as long as there is a one, and then explode. A die that
exploded before and was added by another explodes once more; the die it throws
shows a one, and the second modifier finds no values left. -/
theorem never_halts_exploding :
    Roller.constant.Answers ∧
      (∃ result last, ∃ drawn : List Draw,
        (Formula.roll "2d6rr!").run Roller.constant (Table.new 7) =
            (.ok result, last) ∧
          last.draws = (#[] : Array Draw) ++ drawn ∧
          ∀ draw ∈ drawn, draw.lo ≤ draw.hi) ∧
      (∃ last, (⟨⟨1, .numbered 6, []⟩,
          [(Explosion.follower (.explode none) (· == 6) 6)]⟩ : Rolled).applyEach
            [.explode none, .reroll none true] Roller.listed (Table.new [1]) =
          (.error .outOfValues, last) ∧
        Roller.listed.draw last.state 1 6 = .error .outOfValues) := by
  have hAnswers : Roller.constant.Answers := fun v _ _ _ => ⟨v, v, rfl⟩
  refine ⟨hAnswers, ?_, ?_⟩
  · exact never_halts.1 Roller.constant hAnswers "2d6rr!" (Table.new 7)
  · have hRun : ((⟨⟨1, .numbered 6, []⟩,
        [(Explosion.follower (.explode none) (· == 6) 6)]⟩ : Rolled).applyEach
          [.explode none, .reroll none true] Roller.listed
            (Table.new [1])).1 = .error .outOfValues := by
      rfl
    exact ⟨_, Prod.ext hRun rfl, never_halts.2 _ _ _ _ _ _ (Prod.ext hRun rfl)⟩

end DiceFormula
