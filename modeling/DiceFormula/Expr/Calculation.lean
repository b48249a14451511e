import DiceFormula.Expr.Layout

/-!
# The value of an evaluated expression

Every operation is carried out exactly, division toward zero, and its result
has to be a value. The first operation that has none, going through the
operands from left to right before the operation itself, is the error.

## Main results

* `Op.apply?_eq_some_iff` — the result of an operation is the exact one.
-/

namespace DiceFormula

/-- The exact result of an operation; a division by zero has none. -/
def Op.result? : Op → (a b : Int) → Option Int
  | add, a, b => some (a + b)
  | sub, a, b => some (a - b)
  | mul, a, b => some (a * b)
  | div, a, b => if b = 0 then none else some (a.tdiv b)

/-- The result of an operation, if there is one and it is a value. -/
def Op.apply? (op : Op) (a b : Value) : Option Value :=
  (op.result? a.toInt b.toInt).bind Value.narrow?

theorem Op.apply?_eq_some_iff {op : Op} {a b v : Value} :
    op.apply? a b = some v ↔ op.result? a.toInt b.toInt = some v.toInt := by
  unfold Op.apply?
  cases h : op.result? a.toInt b.toInt with
  | none => simp
  | some n =>
    rw [Option.bind_some, Value.narrow?_eq_some_iff, Option.some.injEq]
    exact eq_comm

namespace Expr

/-- What can go wrong when an evaluated expression is calculated; each error
holds the part of the expression where it arose. -/
inductive CalcError where
  /-- A set of dice has no total. -/
  | dice (place : Evaluated) (cause : Dice.Error)
  /-- The result of an operation other than a division is not a value. -/
  | overflow (place : Evaluated)
  /-- A division has no result. -/
  | division (place : Evaluated)

namespace CalcError

/-- The part of the expression where the error arose. -/
def place : CalcError → Evaluated
  | dice place _ => place
  | overflow place => place
  | division place => place

/-- The text an error is reported with. -/
def message : CalcError → String
  | dice place cause =>
    "dice error while calculating (" ++ Evaluated.describe none place ++
      "): " ++ cause.message
  | overflow place =>
    "integer overflow while calculating " ++ Evaluated.describe none place
  | division place =>
    "division error while calculating " ++ Evaluated.describe none place

/-- The error of an operation that has no result. -/
def ofOp (op : Op) (place : Evaluated) : CalcError :=
  match op with
  | .div => division place
  | _ => overflow place

end CalcError

end Expr

/-- The value of an evaluated expression. -/
def Evaluated.calculate : Evaluated → Except Expr.CalcError Value
  | .num n => .ok n
  | .dice rolled =>
    match rolled.total with
    | .ok v => .ok v
    | .error cause => .error (.dice (.dice rolled) cause)
  | .group e => Evaluated.calculate e
  | .neg e => do
    let v ← Evaluated.calculate e
    match Value.narrow? (-v.toInt) with
    | some r => return r
    | none => throw (.overflow (.neg e))
  | .binary op a b => do
    let v ← Evaluated.calculate a
    let w ← Evaluated.calculate b
    match op.apply? v w with
    | some r => return r
    | none => throw (.ofOp op (.binary op a b))

end DiceFormula
