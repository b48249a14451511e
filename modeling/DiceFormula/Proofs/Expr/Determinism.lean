import DiceFormula.Proofs.Expr.Evaluation
import DiceFormula.Proofs.Expr.Ungrouped

/-!
# Expressions that leave nothing to chance

An expression is deterministic if all its dice have one side. Such a die is
thrown like any other, it can be thrown again, explode, be limited or be
dropped, and whether it does depends on the face it shows; but there is only
one face, and every roller that keeps its promise gives that one. So two
evaluations of the expression, with whatever rollers, go on in lockstep.

## Main results

* `Lockstep.alongside_keeps` — draws from intervals with a single value keep
  two runs together.
* `Expr.run_evaluate_alongside` — so do two evaluations of a deterministic
  expression.
* `Expr.evaluate_deterministic` — a deterministic expression comes to the same
  with all rollers that keep their promise.
-/

namespace DiceFormula

open Rolling

variable {σ τ : Type}

/-! ## Rollers that keep their promise -/

/-- The roller gives a value of every interval that has one. -/
def Roller.KeepsPromise (roller : Roller σ) : Prop :=
  ∀ state lo hi, lo ≤ hi →
    ∃ v next, roller.draw state lo hi = .ok (v, next) ∧ lo ≤ v ∧ v ≤ hi

/-- From an interval with a single value it gives that value. -/
theorem Roller.KeepsPromise.draw_single {roller : Roller σ}
    (h : roller.KeepsPromise) (state : σ) (v : Value) :
    ∃ next, roller.draw state v v = .ok (v, next) := by
  obtain ⟨w, next, hDraw, hLo, hHi⟩ := h state v v (Int32.le_refl v)
  have hSingle : w = v := Int32.le_antisymm hHi hLo
  rw [hSingle] at hDraw
  exact ⟨next, hDraw⟩

theorem Roller.highest_keepsPromise : Roller.highest.KeepsPromise :=
  fun _ _ hi h => ⟨hi, (), rfl, h, Int32.le_refl hi⟩

/-! ## Two runs side by side -/

namespace Lockstep

/-- Two runs that have drawn the same since they began on their tables. -/
def alongside (roller : Roller σ) (roller' : Roller τ) (table : Table σ)
    (table' : Table τ) : Lockstep σ τ where
  left := roller
  right := roller'
  Related a b := ∃ drawn : List Draw,
    a.draws = table.draws ++ drawn ∧ b.draws = table'.draws ++ drawn

/-- Draws from intervals with a single value keep two runs together. -/
theorem alongside_keeps {roller : Roller σ} {roller' : Roller τ}
    (h : roller.KeepsPromise) (h' : roller'.KeepsPromise) (table : Table σ)
    (table' : Table τ) :
    (alongside roller roller' table table').Keeps fun lo hi => lo = hi where
  draw lo hi hSingle := by
    intro a b hRelated
    subst hSingle
    obtain ⟨drawn, hLeft, hRight⟩ := hRelated
    obtain ⟨next, hDraw⟩ := h.draw_single a.state lo
    obtain ⟨next', hDraw'⟩ := h'.draw_single b.state lo
    show (Rolling.draw lo lo roller a).1 = (Rolling.draw lo lo roller' b).1 ∧
      ∃ drawn : List Draw,
        (Rolling.draw lo lo roller a).2.draws = table.draws ++ drawn ∧
          (Rolling.draw lo lo roller' b).2.draws = table'.draws ++ drawn
    simp only [Rolling.draw, hDraw, hDraw']
    refine ⟨trivial, drawn ++ [⟨lo, lo, lo⟩], ?_, ?_⟩
    · rw [hLeft]
      exact Array.ext' (by simp)
    · rw [hRight]
      exact Array.ext' (by simp)
  note record := fun _ _ hRelated => ⟨rfl, hRelated⟩

end Lockstep

/-! ## Deterministic expressions -/

namespace Expr

/-- The dice of a deterministic expression have a single face. -/
theorem minFace_eq_maxFace {e : Expr Dice} (h : e.isDeterministic = true) :
    ∀ d ∈ e.sets, d.sides.minFace = d.sides.maxFace := by
  intro d hd
  have hSides : d.sides = .numbered 1 :=
    of_decide_eq_true (List.all_eq_true.1 h d hd)
  rw [hSides]
  rfl

/-- Two evaluations of a deterministic expression, with rollers that keep their
promise, end without a halt and in the same result, and have drawn the same. -/
theorem run_evaluate_alongside {e : Expr Dice} (h : e.isDeterministic = true)
    {roller : Roller σ} {roller' : Roller τ} (hRoller : roller.KeepsPromise)
    (hRoller' : roller'.KeepsPromise) (table : Table σ) (table' : Table τ) :
    ∃ result last last', ∃ drawn : List Draw,
      e.evaluate.run roller table = (.ok result, last) ∧
      e.evaluate.run roller' table' = (.ok result, last') ∧
      last.draws = table.draws ++ drawn ∧
      last'.draws = table'.draws ++ drawn := by
  have hFaces := minFace_eq_maxFace h
  have hKeeps := Lockstep.alongside_keeps hRoller hRoller' table table'
  have hAgree : (e.evaluate.run roller table).1 =
      (e.evaluate.run roller' table').1 ∧ ∃ drawn : List Draw,
        (e.evaluate.run roller table).2.draws = table.draws ++ drawn ∧
          (e.evaluate.run roller' table').2.draws = table'.draws ++ drawn :=
    agree_evaluate hKeeps hFaces table table' ⟨[], by simp, by simp⟩
  obtain ⟨hAnswer, drawn, hDrawn, hDrawn'⟩ := hAgree
  -- Neither halts, since the roller answers for the one face there is.
  obtain ⟨_, -, -, -, hHalt⟩ := ensures_evaluate hFaces roller table
  rcases hRun : e.evaluate.run roller table with ⟨halt | result, last⟩
  · obtain ⟨lo, hi, hSingle, hDraw⟩ := hHalt halt (congrArg Prod.fst hRun)
    subst hSingle
    obtain ⟨next, hGiven⟩ := hRoller.draw_single _ lo
    rw [hDraw] at hGiven
    cases hGiven
  · rcases hRun' : e.evaluate.run roller' table' with ⟨answer, last'⟩
    rw [hRun, hRun'] at hAnswer
    rw [hRun] at hDrawn
    rw [hRun'] at hDrawn'
    cases hAnswer
    exact ⟨result, last, last', drawn, rfl, rfl, hDrawn, hDrawn'⟩

/-- A deterministic expression comes to the same with all rollers that keep
their promise. Whatever modifiers its dice have, both evaluations end without a
halt, in the same evaluated expression or in the same error, and have drawn the
same; and so both come to the same total. -/
theorem evaluate_deterministic {e : Expr Dice} (h : e.isDeterministic = true)
    {roller : Roller σ} {roller' : Roller τ} (hRoller : roller.KeepsPromise)
    (hRoller' : roller'.KeepsPromise) (table : Table σ) (table' : Table τ) :
    ∃ result last last', ∃ drawn : List Draw,
      e.evaluate.run roller table = (.ok result, last) ∧
      e.evaluate.run roller' table' = (.ok result, last') ∧
      last.draws = table.draws ++ drawn ∧
      last'.draws = table'.draws ++ drawn ∧
      (e.total.run roller table).1 = (e.total.run roller' table').1 := by
  obtain ⟨result, last, last', drawn, hRun, hRun', hDrawn, hDrawn'⟩ :=
    run_evaluate_alongside h hRoller hRoller' table table'
  refine ⟨result, last, last', drawn, hRun, hRun', hDrawn, hDrawn', ?_⟩
  rw [run_total, run_total, hRun, hRun']
  cases result with
  | error err => rfl
  | ok evaluated => rfl

/-- Three dice with one side, each of which is thrown again once and then counts
for two, are worth the same with a roller that gives the highest face as with one
that gives the lowest and counts how often it is asked. -/
theorem evaluate_deterministic_rerolled :
    (dice ⟨3, .numbered 1, [.reroll none false, .atLeast 2]⟩ :
        Expr Dice).isDeterministic = true ∧
      Roller.highest.KeepsPromise ∧
      (⟨fun n lo _ => .ok (lo, n + 1)⟩ : Roller Nat).KeepsPromise ∧
      ∃ result last last', ∃ drawn : List Draw,
        (dice ⟨3, .numbered 1, [.reroll none false, .atLeast 2]⟩ :
            Expr Dice).evaluate.run Roller.highest (Table.new ()) =
          (.ok result, last) ∧
        (dice ⟨3, .numbered 1, [.reroll none false, .atLeast 2]⟩ :
            Expr Dice).evaluate.run ⟨fun n lo _ => .ok (lo, n + 1)⟩
              (Table.new 0) =
          (.ok result, last') ∧
        last.draws = (#[] : Array Draw) ++ drawn ∧
        last'.draws = (#[] : Array Draw) ++ drawn := by
  have hCounting : (⟨fun n lo _ => .ok (lo, n + 1)⟩ : Roller Nat).KeepsPromise :=
    fun n lo hi h => ⟨lo, n + 1, rfl, Int32.le_refl lo, h⟩
  obtain ⟨result, last, last', drawn, hRun, hRun', hDrawn, hDrawn', -⟩ :=
    evaluate_deterministic
      (e := dice ⟨3, .numbered 1, [.reroll none false, .atLeast 2]⟩) rfl
      Roller.highest_keepsPromise hCounting (Table.new ()) (Table.new 0)
  exact ⟨rfl, Roller.highest_keepsPromise, hCounting, result, last, last', drawn,
    hRun, hRun', hDrawn, hDrawn'⟩

end Expr

end DiceFormula
