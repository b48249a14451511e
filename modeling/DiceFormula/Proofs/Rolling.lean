import DiceFormula.Rolling

/-!
# Runs of computations with errors

Most of what is rolled can fail with an error, in a computation that can halt.
A run therefore ends in one of three ways, and only where there is a value does
the next step begin, with the table that was left. The lemmas say so once for
all computations; what they are about is told by the steps.

## Main results

* `Rolling.run_bind_eq_ok_iff` — a sequence that answers a value is made of
  steps that do.
* `Rolling.run_bind_eq_stop_iff` — any other sequence is broken off by one of
  its steps.
* `Rolling.run_adapt_bind`, `Rolling.run_adapt_pure_bind` — a step whose error
  is put into another type.
-/

namespace DiceFormula

variable {σ : Type}

/-- The table with further records in its log. -/
def Table.logged (table : Table σ) (records : List Log.Record) : Table σ :=
  { table with log := table.log ++ records }

theorem Table.logged_nil (table : Table σ) : table.logged [] = table := by
  simp [logged]

/-- The table with one more record in its log. -/
def Table.noted (table : Table σ) (record : Log.Record) : Table σ :=
  { table with log := table.log.push record }

/-- The tables differ in their records at most. -/
structure Table.Matches (a b : Table σ) : Prop where
  state : a.state = b.state
  draws : a.draws = b.draws

theorem Table.Matches.symm {a b : Table σ} (h : a.Matches b) : b.Matches a :=
  ⟨h.state.symm, h.draws.symm⟩

theorem Table.Matches.trans {a b c : Table σ} (h : a.Matches b)
    (h' : b.Matches c) : a.Matches c :=
  ⟨h.state.trans h'.state, h.draws.trans h'.draws⟩

theorem Table.logged_matches_logged (table : Table σ)
    (records records' : List Log.Record) :
    (table.logged records).Matches (table.logged records') := ⟨rfl, rfl⟩

theorem Rolling.run_ofLogged {α : Type} (x : Logged α) (roller : Roller σ)
    (table : Table σ) :
    (ofLogged x) roller table = (.ok x.value, table.logged x.records) := rfl

/-- A step with an error of its own comes first, or ends the roll. -/
theorem Rolling.run_adapt_bind {ε ε' α β : Type} (f : ε → ε')
    (x : ExceptT ε (Rolling σ) α) (k : α → ExceptT ε' (Rolling σ) β)
    (roller : Roller σ) (table : Table σ) :
    (ExceptT.adapt f x >>= k).run roller table =
      match x.run roller table with
      | (.error halt, after) => (.error halt, after)
      | (.ok (.error cause), after) => (.ok (.error (f cause)), after)
      | (.ok (.ok a), after) => (k a).run roller after := by
  have hRun : (ExceptT.adapt f x >>= k).run =
      (Except.mapError f <$> x.run) >>= ExceptT.bindCont k := rfl
  rw [hRun, Rolling.bind_apply, map_eq_pure_bind, Rolling.bind_apply]
  rcases x.run roller table with ⟨halt | cause | a, after⟩ <;> rfl

/-- A step that throws nothing comes first, or ends the roll. -/
theorem Rolling.run_adapt_pure_bind {ε ε' α β : Type} (f : ε → ε')
    (x : Except ε α) (k : α → ExceptT ε' (Rolling σ) β) (roller : Roller σ)
    (table : Table σ) :
    (ExceptT.adapt f (ExceptT.mk (pure x)) >>= k).run roller table =
      match x with
      | .error cause => (.ok (.error (f cause)), table)
      | .ok a => (k a).run roller table := by
  cases x <;> rfl

/-- A sequence that answers a value is made of steps that do. -/
theorem Rolling.run_bind_eq_ok_iff {ε α β : Type}
    {x : ExceptT ε (Rolling σ) α} {k : α → ExceptT ε (Rolling σ) β}
    {roller : Roller σ} {table last : Table σ} {b : β} :
    (x >>= k).run roller table = (.ok (.ok b), last) ↔
      ∃ a middle, x.run roller table = (.ok (.ok a), middle) ∧
        (k a).run roller middle = (.ok (.ok b), last) := by
  have hRun : (x >>= k).run = x.run >>= ExceptT.bindCont k := rfl
  rw [hRun, bind_eq_ok_iff]
  constructor
  · rintro ⟨a | a, middle, hx, hk⟩
    · cases hk
    · exact ⟨a, middle, hx, hk⟩
  · rintro ⟨a, middle, hx, hk⟩
    exact ⟨.ok a, middle, hx, hk⟩

/-- A sequence that answers an error or halts has a step that does, and none
after it. -/
theorem Rolling.run_bind_eq_stop_iff {ε α β : Type}
    {x : ExceptT ε (Rolling σ) α} {k : α → ExceptT ε (Rolling σ) β}
    {roller : Roller σ} {table last : Table σ} {stop : Except Halt ε} :
    (x >>= k).run roller table = (stop.map .error, last) ↔
      x.run roller table = (stop.map .error, last) ∨
        ∃ a middle, x.run roller table = (.ok (.ok a), middle) ∧
          (k a).run roller middle = (stop.map .error, last) := by
  have hRun : (x >>= k).run = x.run >>= ExceptT.bindCont k := rfl
  rw [hRun, bind_apply]
  rcases x.run roller table with ⟨halt | cause | a, after⟩
  · cases stop <;> simp [Except.map]
  · cases stop <;> simp [Except.map, ExceptT.bindCont, pure_apply]
  · constructor
    · intro h
      exact .inr ⟨a, after, rfl, h⟩
    · rintro (h | ⟨_, _, ⟨⟩, h⟩)
      · cases stop <;> cases h
      · exact h

theorem Rolling.run_bind_eq_error_iff {ε α β : Type}
    {x : ExceptT ε (Rolling σ) α} {k : α → ExceptT ε (Rolling σ) β}
    {roller : Roller σ} {table last : Table σ} {err : ε} :
    (x >>= k).run roller table = (.ok (.error err), last) ↔
      x.run roller table = (.ok (.error err), last) ∨
        ∃ a middle, x.run roller table = (.ok (.ok a), middle) ∧
          (k a).run roller middle = (.ok (.error err), last) :=
  @run_bind_eq_stop_iff σ ε α β x k roller table last (.ok err)

/-- Putting the error into another type changes nothing else. -/
theorem Rolling.run_adapt {ε ε' α : Type} (f : ε → ε')
    (x : ExceptT ε (Rolling σ) α) (roller : Roller σ) (table : Table σ) :
    (ExceptT.adapt f x).run roller table =
      ((x.run roller table).1.map (Except.mapError f),
        (x.run roller table).2) := by
  have hRun : (ExceptT.adapt f x).run = Except.mapError f <$> x.run := rfl
  rw [hRun, map_eq_pure_bind, bind_apply]
  rcases x.run roller table with ⟨halt | result, after⟩ <;> rfl

theorem Rolling.run_adapt_eq_ok_iff {ε ε' α : Type} {f : ε → ε'}
    {x : ExceptT ε (Rolling σ) α} {roller : Roller σ} {table last : Table σ}
    {a : α} :
    (ExceptT.adapt f x).run roller table = (.ok (.ok a), last) ↔
      x.run roller table = (.ok (.ok a), last) := by
  rw [run_adapt]
  rcases x.run roller table with ⟨halt | cause | b, after⟩
  · exact iff_of_false nofun nofun
  · exact iff_of_false nofun nofun
  · constructor
    · rintro ⟨⟩
      rfl
    · rintro ⟨⟩
      rfl

theorem Rolling.run_adapt_eq_error_iff {ε ε' α : Type} {f : ε → ε'}
    {x : ExceptT ε (Rolling σ) α} {roller : Roller σ} {table last : Table σ}
    {err : ε'} :
    (ExceptT.adapt f x).run roller table = (.ok (.error err), last) ↔
      ∃ cause, x.run roller table = (.ok (.error cause), last) ∧
        f cause = err := by
  rw [run_adapt]
  rcases x.run roller table with ⟨halt | cause | b, after⟩
  · exact iff_of_false nofun nofun
  · constructor
    · rintro ⟨⟩
      exact ⟨cause, rfl, rfl⟩
    · rintro ⟨_, ⟨⟩, rfl⟩
      rfl
  · exact iff_of_false nofun nofun

theorem Rolling.run_adapt_eq_halt_iff {ε ε' α : Type} {f : ε → ε'}
    {x : ExceptT ε (Rolling σ) α} {roller : Roller σ} {table last : Table σ}
    {halt : Halt} :
    (ExceptT.adapt f x).run roller table = (.error halt, last) ↔
      x.run roller table = (.error halt, last) := by
  rw [run_adapt]
  rcases x.run roller table with ⟨halt' | result, after⟩
  · constructor
    · rintro ⟨⟩
      rfl
    · rintro ⟨⟩
      rfl
  · exact iff_of_false nofun nofun

/-- Changing the value that is answered changes nothing else. -/
theorem Rolling.run_map {ε α β : Type} (f : α → β) (x : ExceptT ε (Rolling σ) α)
    (roller : Roller σ) (table : Table σ) :
    (f <$> x).run roller table =
      ((x.run roller table).1.map (Except.map f), (x.run roller table).2) := by
  rw [ExceptT.run_map, map_eq_pure_bind, bind_apply]
  rcases x.run roller table with ⟨halt | result, after⟩ <;> rfl

theorem Rolling.run_map_eq_ok_iff {ε α β : Type} {f : α → β}
    {x : ExceptT ε (Rolling σ) α} {roller : Roller σ} {table last : Table σ}
    {b : β} :
    (f <$> x).run roller table = (.ok (.ok b), last) ↔
      ∃ a, x.run roller table = (.ok (.ok a), last) ∧ f a = b := by
  rw [run_map]
  rcases x.run roller table with ⟨halt | cause | a, after⟩
  · exact iff_of_false nofun nofun
  · exact iff_of_false nofun nofun
  · constructor
    · rintro ⟨⟩
      exact ⟨a, rfl, rfl⟩
    · rintro ⟨_, ⟨⟩, rfl⟩
      rfl

theorem Rolling.run_map_eq_stop_iff {ε α β : Type} {f : α → β}
    {x : ExceptT ε (Rolling σ) α} {roller : Roller σ} {table last : Table σ}
    {stop : Except Halt ε} :
    (f <$> x).run roller table = (stop.map .error, last) ↔
      x.run roller table = (stop.map .error, last) := by
  rw [run_map]
  rcases x.run roller table with ⟨halt | cause | a, after⟩
  · cases stop <;> simp [Except.map]
  · cases stop <;> simp [Except.map]
  · cases stop <;> simp [Except.map]

theorem Rolling.run_pure {ε α : Type} (a : α) (roller : Roller σ)
    (table : Table σ) :
    (pure a : ExceptT ε (Rolling σ) α).run roller table =
      (.ok (.ok a), table) := rfl

end DiceFormula
