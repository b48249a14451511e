import DiceFormula.Formula.Error
import DiceFormula.Proofs.Expr.Alike

/-!
# Expressions without their groups

A group only says how an expression was written. Two expressions that differ in
nothing but their groups throw the same dice in the same order and come to the
same value; where they fail, it is with the same error at the same place, and
only that place is shown with different parentheses.

## Main results

* `mapM_ungroup` — a traversal takes no notice of groups.
* `calculate_ungroup` — neither does a calculation.
* `total_congr` — expressions that differ in their groups only are worth the
  same.
-/

namespace DiceFormula

variable {σ : Type}

namespace Expr

variable {δ ε : Type}

/-- The expression without its groups. -/
def ungroup : Expr δ → Expr δ
  | num n => num n
  | dice d => dice d
  | group e => e.ungroup
  | neg e => neg e.ungroup
  | binary op a b => binary op a.ungroup b.ungroup

/-! ## Traversals -/

/-- A traversal takes no notice of groups. -/
theorem mapM_ungroup {m : Type → Type} [Monad m] [LawfulMonad m] (f : δ → m ε)
    (e : Expr δ) : e.ungroup.mapM f = ungroup <$> e.mapM f := by
  induction e with
  | num n => simp only [ungroup, mapM, map_pure]
  | dice d => simp only [ungroup, mapM, map_bind, map_pure]
  | group e ih =>
      rw [ungroup, ih, mapM, map_bind]
      simp only [map_pure, ungroup, bind_pure_comp]
  | neg e ih => simp only [ungroup, mapM, map_bind, map_pure, ih, bind_map_left]
  | binary op a b iha ihb =>
      simp only [ungroup, mapM, map_bind, map_pure, iha, ihb, bind_map_left]

theorem run_evaluate_ungroup (e : Expr Dice) (roller : Roller σ)
    (table : Table σ) :
    e.ungroup.evaluate.run roller table =
      ((e.evaluate.run roller table).1.map (Except.map ungroup),
        (e.evaluate.run roller table).2) := by
  rw [evaluate, mapM_ungroup]
  exact Rolling.run_map ungroup e.evaluate roller table

/-! ## Calculations -/

/-- The error at a place that has no groups. -/
def CalcError.ungroup : CalcError → CalcError
  | dice place cause => dice place.ungroup cause
  | overflow place => overflow place.ungroup
  | division place => division place.ungroup

theorem CalcError.mapError_ungroup_ok (v : Value) :
    (Except.ok v : Except CalcError Value).mapError CalcError.ungroup = .ok v := rfl

theorem CalcError.ungroup_ofOp (op : Op) (place : Evaluated) :
    (ofOp op place).ungroup = ofOp op (Expr.ungroup place) := by
  cases op <;> rfl

/-- A calculation takes no notice of groups but in the place of an error. -/
theorem calculate_ungroup (e : Evaluated) :
    Evaluated.calculate e.ungroup =
      (Evaluated.calculate e).mapError CalcError.ungroup := by
  induction e with
  | num n => rfl
  | dice rolled =>
      simp only [ungroup, Evaluated.calculate]
      cases rolled.total <;> rfl
  | group e ih => exact ih
  | neg e ih =>
      simp only [ungroup, Evaluated.calculate, ih]
      cases Evaluated.calculate e with
      | error err => rfl
      | ok v =>
          simp only [CalcError.mapError_ungroup_ok, bind, Except.bind]
          cases Value.narrow? (-v.toInt) <;> rfl
  | binary op a b iha ihb =>
      simp only [ungroup, Evaluated.calculate, iha, ihb]
      cases Evaluated.calculate a with
      | error err => rfl
      | ok v =>
          cases Evaluated.calculate b with
          | error err => rfl
          | ok w =>
              simp only [CalcError.mapError_ungroup_ok, bind, Except.bind]
              cases op.apply? v w with
              | none =>
                  exact congrArg Except.error
                    (CalcError.ungroup_ofOp op (.binary op a b)).symm
              | some r => rfl

end Expr

/-! ## Values -/

/-- The error at a place that has no groups. -/
def Formula.Error.ungroup : Formula.Error → Formula.Error
  | refused cause => refused cause
  | evaluation cause => evaluation cause
  | calculation cause => calculation cause.ungroup

namespace Expr

/-- Throws the dice of an expression and calculates what they come to. -/
def total (e : Expr Dice) : ExceptT Formula.Error (Rolling σ) Value := do
  let evaluated ← ExceptT.adapt Formula.Error.evaluation e.evaluate
  ExceptT.adapt Formula.Error.calculation
    (ExceptT.mk (pure (Evaluated.calculate evaluated)))

theorem run_total (e : Expr Dice) (roller : Roller σ) (table : Table σ) :
    e.total.run roller table =
      match e.evaluate.run roller table with
      | (.error halt, after) => (.error halt, after)
      | (.ok (.error cause), after) => (.ok (.error (.evaluation cause)), after)
      | (.ok (.ok evaluated), after) =>
        (.ok ((Evaluated.calculate evaluated).mapError .calculation), after) := by
  refine (Rolling.run_adapt_bind Formula.Error.evaluation e.evaluate _ roller
    table).trans ?_
  rcases e.evaluate.run roller table with ⟨halt | cause | evaluated, after⟩ <;> rfl

/-- Without its groups an expression has the same value, found with the same
throws. -/
theorem run_total_ungroup (e : Expr Dice) (roller : Roller σ)
    (table : Table σ) :
    e.ungroup.total.run roller table =
      ((e.total.run roller table).1.map
          (Except.mapError Formula.Error.ungroup),
        (e.total.run roller table).2) := by
  rw [run_total, run_total, run_evaluate_ungroup]
  rcases e.evaluate.run roller table with ⟨halt | cause | evaluated, after⟩
  · rfl
  · rfl
  · simp only [Except.map, calculate_ungroup]
    cases Evaluated.calculate evaluated <;> rfl

/-- Expressions that differ in their groups only have the same value, found with
the same throws. -/
theorem total_congr {e e' : Expr Dice} (h : e.ungroup = e'.ungroup)
    (roller : Roller σ) (table : Table σ) :
    (e.total.run roller table).2 = (e'.total.run roller table).2 ∧
      (e.total.run roller table).1.map (Except.mapError Formula.Error.ungroup) =
        (e'.total.run roller table).1.map
          (Except.mapError Formula.Error.ungroup) := by
  have hRun := run_total_ungroup e roller table
  rw [h, run_total_ungroup e', Prod.mk.injEq] at hRun
  exact ⟨hRun.2.symm, hRun.1.symm⟩

end Expr

end DiceFormula
