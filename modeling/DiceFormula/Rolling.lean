import DiceFormula.Log
import DiceFormula.Roller

/-!
# Rolling

A computation that throws dice. It asks a roller for values, and it keeps on
the table what an observer can see of it: the state of the roller, every value
that was drawn with the interval it was drawn from, and the log.

A roller that gives no value halts the computation. What was on the table then
stays there; the draw that failed is not counted.

## Main results

* `Rolling.bind_eq_of_ok`, `Rolling.bind_eq_of_error` — a sequence goes on
  from the table its first part left, unless that halted.
* `Rolling.bind_eq_ok_iff` — a sequence that does not halt is made of parts
  that do not.
-/

namespace DiceFormula

/-- A value that was drawn, and the interval it was drawn from. -/
structure Draw where
  lo : Value
  hi : Value
  value : Value
  deriving DecidableEq

/-- What can be seen of a roll in progress. -/
structure Table (σ : Type) where
  /-- The state of the roller. -/
  state : σ
  /-- The values drawn, the first one first. -/
  draws : Array Draw
  /-- The records made, the first one first. -/
  log : Array Log.Record

/-- A table on which nothing has been thrown yet. -/
def Table.new {σ : Type} (state : σ) : Table σ := ⟨state, #[], #[]⟩

/-- A computation that throws dice with a roller. -/
def Rolling (σ α : Type) : Type :=
  Roller σ → Table σ → Except Halt α × Table σ

namespace Rolling

variable {σ α β : Type}

/-- Throws nothing. -/
@[always_inline, inline]
protected def pure (a : α) : Rolling σ α := fun _ table => (.ok a, table)

/-- Goes on with `f` where `x` ended, unless it halted. -/
@[always_inline, inline]
protected def bind (x : Rolling σ α) (f : α → Rolling σ β) : Rolling σ β :=
  fun roller table =>
    match x roller table with
    | (.ok a, table') => f a roller table'
    | (.error halt, table') => (.error halt, table')

instance : Monad (Rolling σ) where
  pure := Rolling.pure
  bind := Rolling.bind

theorem pure_apply (a : α) (roller : Roller σ) (table : Table σ) :
    (pure a : Rolling σ α) roller table = (.ok a, table) := rfl

theorem bind_apply (x : Rolling σ α) (f : α → Rolling σ β) (roller : Roller σ)
    (table : Table σ) :
    (x >>= f) roller table =
      match x roller table with
      | (.ok a, table') => f a roller table'
      | (.error halt, table') => (.error halt, table') := rfl

theorem bind_eq_of_ok {x : Rolling σ α} {f : α → Rolling σ β}
    {roller : Roller σ} {table table' : Table σ} {a : α}
    (h : x roller table = (.ok a, table')) :
    (x >>= f) roller table = f a roller table' := by
  rw [bind_apply, h]

theorem bind_eq_of_error {x : Rolling σ α} {f : α → Rolling σ β}
    {roller : Roller σ} {table table' : Table σ} {halt : Halt}
    (h : x roller table = (.error halt, table')) :
    (x >>= f) roller table = (.error halt, table') := by
  rw [bind_apply, h]

theorem bind_eq_ok_iff {x : Rolling σ α} {f : α → Rolling σ β}
    {roller : Roller σ} {table last : Table σ} {b : β} :
    (x >>= f) roller table = (.ok b, last) ↔
      ∃ a middle, x roller table = (.ok a, middle) ∧
        f a roller middle = (.ok b, last) := by
  rw [bind_apply]
  constructor
  · intro h
    rcases hx : x roller table with ⟨halt | a, middle⟩
    · rw [hx] at h
      cases h
    · rw [hx] at h
      exact ⟨a, middle, rfl, h⟩
  · rintro ⟨a, middle, hx, hf⟩
    rw [hx]
    exact hf

private theorem bind_pure' (x : Rolling σ α) : (x >>= pure) = x := by
  funext roller table
  rw [bind_apply]
  rcases x roller table with ⟨_ | _, _⟩ <;> rfl

private theorem bind_bind {γ : Type} (x : Rolling σ α) (f : α → Rolling σ β)
    (g : β → Rolling σ γ) : (x >>= f) >>= g = x >>= fun a => f a >>= g := by
  funext roller table
  simp only [bind_apply]
  rcases x roller table with ⟨_ | _, _⟩ <;> rfl

instance : LawfulMonad (Rolling σ) :=
  LawfulMonad.mk' (Rolling σ) bind_pure' (fun _ _ => rfl) bind_bind

/-- Asks the roller for a value. -/
def draw (lo hi : Value) : Rolling σ Value := fun roller table =>
  match roller.draw table.state lo hi with
  | .ok (v, state) =>
    (.ok v, { table with state, draws := table.draws.push ⟨lo, hi, v⟩ })
  | .error halt => (.error halt, table)

/-- Makes a record in the log. -/
def note (record : Log.Record) : Rolling σ Unit := fun _ table =>
  (.ok (), { table with log := table.log.push record })

/-- Halts where `x` does. -/
def ofExcept (x : Except Halt α) : Rolling σ α := fun _ table => (x, table)

/-- Makes the records of a computation that throws nothing. -/
def ofLogged (x : Logged α) : Rolling σ α := fun _ table =>
  (.ok x.value, { table with log := table.log ++ x.records })

/-- Throws a die. -/
def throwDie (sides : Sides) : Rolling σ Die := do
  return .ofFace (← draw sides.minFace sides.maxFace)

end Rolling

end DiceFormula
