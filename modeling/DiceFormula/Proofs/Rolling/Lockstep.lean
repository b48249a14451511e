import DiceFormula.Proofs.Rolling

/-!
# Two runs in lockstep

A computation cannot look at the table: all it learns is the values it is
given. Of two runs of one computation, with two rollers and on two tables, more
can therefore be said than of a single one. If every draw gives them the same
value and every step keeps what their tables have in common, they come to the
same answer. A `Lockstep` is such a pair of runs, and `Agree` says of two
computations that they go on together in it; the rules follow the ways in which
computations are put together.

## Main results

* `Agree.bind`, `Agree.run_bind` — sequences agree if their parts do.
* `Lockstep.onTop`, `Lockstep.onTop_keeps` — what a computation does is put on
  top of what was on the table before.
-/

namespace DiceFormula

/-- Two rollers, and what the tables of two runs with them have in common. -/
structure Lockstep (σ τ : Type) where
  left : Roller σ
  right : Roller τ
  Related : Table σ → Table τ → Prop

namespace Lockstep

open Rolling

variable {σ τ α β ε ε' : Type} {runs : Lockstep σ τ}

/-- Begun on related tables, the computations come to the same answer or halt
alike, and leave related tables. -/
def Agree (runs : Lockstep σ τ) (x : Rolling σ α) (y : Rolling τ α) : Prop :=
  ∀ a b, runs.Related a b →
    (x runs.left a).1 = (y runs.right b).1 ∧
      runs.Related (x runs.left a).2 (y runs.right b).2

/-- Records keep the runs in lockstep, and so does every draw from an interval
that `asks` admits. -/
structure Keeps (runs : Lockstep σ τ) (asks : Value → Value → Prop) : Prop where
  draw : ∀ lo hi, asks lo hi → runs.Agree (draw lo hi) (draw lo hi)
  note : ∀ record, runs.Agree (note record) (note record)

/-! ## Rules -/

theorem agree_pure (v : α) : runs.Agree (pure v) (pure v) :=
  fun _ _ hRelated => ⟨rfl, hRelated⟩

theorem agree_ofExcept (x : Except Halt α) :
    runs.Agree (ofExcept x) (ofExcept x) :=
  fun _ _ hRelated => ⟨rfl, hRelated⟩

/-- Sequences agree if their first parts do, and what follows each answer of
these. -/
theorem Agree.bind_of {x : Rolling σ α} {y : Rolling τ α} {f : α → Rolling σ β}
    {g : α → Rolling τ β} (h : runs.Agree x y)
    (hMore : ∀ v before after, x runs.left before = (.ok v, after) →
      runs.Agree (f v) (g v)) : runs.Agree (x >>= f) (y >>= g) := by
  intro a b hRelated
  obtain ⟨hAnswer, hAfter⟩ := h a b hRelated
  rcases hx : x runs.left a with ⟨halt | v, a'⟩
  · rcases hy : y runs.right b with ⟨halt' | w, b'⟩
    · rw [hx, hy] at hAnswer hAfter
      rw [bind_eq_of_error hx, bind_eq_of_error hy]
      exact ⟨congrArg Except.error (Except.error.inj hAnswer), hAfter⟩
    · rw [hx, hy] at hAnswer
      cases hAnswer
  · rcases hy : y runs.right b with ⟨halt' | w, b'⟩
    · rw [hx, hy] at hAnswer
      cases hAnswer
    · rw [hx, hy] at hAnswer hAfter
      cases hAnswer
      rw [bind_eq_of_ok hx, bind_eq_of_ok hy]
      exact hMore v a a' hx a' b' hAfter

theorem Agree.bind {x : Rolling σ α} {y : Rolling τ α} {f : α → Rolling σ β}
    {g : α → Rolling τ β} (h : runs.Agree x y)
    (hMore : ∀ v, runs.Agree (f v) (g v)) : runs.Agree (x >>= f) (y >>= g) :=
  h.bind_of fun v _ _ _ => hMore v

/-- An error of the first parts is the answer of both sequences. -/
theorem Agree.run_bind {x : ExceptT ε (Rolling σ) α}
    {y : ExceptT ε (Rolling τ) α} {f : α → ExceptT ε (Rolling σ) β}
    {g : α → ExceptT ε (Rolling τ) β} (h : runs.Agree x.run y.run)
    (hMore : ∀ v, runs.Agree (f v).run (g v).run) :
    runs.Agree (x >>= f).run (y >>= g).run := by
  have hLeft : (x >>= f).run = x.run >>= ExceptT.bindCont f := rfl
  have hRight : (y >>= g).run = y.run >>= ExceptT.bindCont g := rfl
  rw [hLeft, hRight]
  refine h.bind fun result => ?_
  cases result with
  | error err => exact agree_pure (Except.error err)
  | ok v => exact hMore v

/-- Putting the errors into another type changes nothing else. -/
theorem Agree.run_adapt {f : ε → ε'} {x : ExceptT ε (Rolling σ) α}
    {y : ExceptT ε (Rolling τ) α} (h : runs.Agree x.run y.run) :
    runs.Agree (ExceptT.adapt f x).run (ExceptT.adapt f y).run := by
  have hLeft : (ExceptT.adapt f x).run = Except.mapError f <$> x.run := rfl
  have hRight : (ExceptT.adapt f y).run = Except.mapError f <$> y.run := rfl
  rw [hLeft, hRight, map_eq_pure_bind, map_eq_pure_bind]
  exact h.bind fun result => agree_pure (result.mapError f)

theorem Keeps.throwDie {asks : Value → Value → Prop} (h : runs.Keeps asks)
    {sides : Sides} (hAsks : asks sides.minFace sides.maxFace) :
    runs.Agree (throwDie sides) (throwDie sides) :=
  (h.draw _ _ hAsks).bind fun v => agree_pure (Die.ofFace v)

end Lockstep

/-! ## What was on the table before -/

/-- The table on which what is on `top` has been done after what is on
`table`. -/
def Table.append {σ : Type} (table top : Table σ) : Table σ :=
  ⟨top.state, table.draws ++ top.draws, table.log ++ top.log⟩

theorem Table.append_new {σ : Type} (table : Table σ) :
    table.append (.new table.state) = table := by
  simp [append, new]

namespace Lockstep

variable {σ : Type}

/-- A run on top of a table, beside one on a table of its own. -/
def onTop (roller : Roller σ) (table : Table σ) : Lockstep σ σ where
  left := roller
  right := roller
  Related a b := a = table.append b

theorem onTop_keeps (roller : Roller σ) (table : Table σ) :
    (onTop roller table).Keeps fun _ _ => True where
  draw lo hi _ := by
    rintro _ top rfl
    show (Rolling.draw lo hi roller (table.append top)).1 =
        (Rolling.draw lo hi roller top).1 ∧
      (Rolling.draw lo hi roller (table.append top)).2 =
        table.append (Rolling.draw lo hi roller top).2
    have hState : (table.append top).state = top.state := rfl
    simp only [Rolling.draw, hState]
    cases roller.draw top.state lo hi with
    | error halt => exact ⟨rfl, rfl⟩
    | ok answer => exact ⟨rfl, by simp [Table.append]⟩
  note record := by
    rintro _ top rfl
    exact ⟨rfl, by simp [onTop, Rolling.note, Table.append]⟩

/-- A computation that keeps its runs together does on a table what it does
alone, on top of what was there before. -/
theorem eq_of_agree_onTop {α : Type} {x : Rolling σ α} {roller : Roller σ}
    {table : Table σ} (h : (onTop roller table).Agree x x) :
    x roller table =
      ((x roller (.new table.state)).1,
        table.append (x roller (.new table.state)).2) := by
  obtain ⟨hAnswer, hTable⟩ := h table (.new table.state) table.append_new.symm
  exact Prod.ext hAnswer hTable

end Lockstep

end DiceFormula
