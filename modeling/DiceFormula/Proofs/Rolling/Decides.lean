import DiceFormula.Proofs.Rolling

/-!
# What the values decide

A modifier throws dice of one kind, so it asks for values of one interval. Which
values it gets is up to the roller; what it does with them is not. `Table.Drawn`
says that a roller gives certain values one after the other, and `Decides` that a
computation comes to an answer just if the roller gives the values that decide on
it. The rules follow the ways in which computations are put together.

## Main results

* `Table.Drawn.append_iff` — values are given one part after the other.
* `Decides.bind`, `decides_throwDie_bind` — what decides on a sequence.
-/

namespace DiceFormula

variable {σ α β : Type}

/-! ## Values in a row -/

/-- The roller gives these values for the faces of a die, one after the other, and
they are drawn. -/
inductive Table.Drawn (roller : Roller σ) (sides : Sides) :
    Table σ → List Value → Table σ → Prop
  | none (table : Table σ) : Drawn roller sides table [] table
  | next {table last : Table σ} {v : Value} {state : σ} {values : List Value}
      (h : roller.draw table.state sides.minFace sides.maxFace = .ok (v, state))
      (hRest : Drawn roller sides
        { table with
          state, draws := table.draws.push ⟨sides.minFace, sides.maxFace, v⟩ }
        values last) :
      Drawn roller sides table (v :: values) last

namespace Table.Drawn

variable {roller : Roller σ} {sides : Sides} {table last : Table σ}
  {values more : List Value}

theorem nil_iff : table.Drawn roller sides [] last ↔ last = table := by
  constructor
  · rintro ⟨⟩
    rfl
  · rintro rfl
    exact .none last

/-- Values are given one part after the other. -/
theorem append_iff : table.Drawn roller sides (values ++ more) last ↔
    ∃ middle, table.Drawn roller sides values middle ∧
      middle.Drawn roller sides more last := by
  constructor
  · intro h
    induction values generalizing table with
    | nil => exact ⟨table, .none table, h⟩
    | cons v values ih =>
        cases h with
        | next hDraw hRest =>
            obtain ⟨middle, hFirst, hMore⟩ := ih hRest
            exact ⟨middle, .next hDraw hFirst, hMore⟩
  · rintro ⟨middle, hFirst, hMore⟩
    induction hFirst with
    | none => exact hMore
    | next hDraw _ ih => exact .next hDraw (ih hMore)

/-- Every value is drawn once. -/
theorem draws_eq (h : table.Drawn roller sides values last) :
    last.draws = table.draws ++
      values.map (Draw.mk sides.minFace sides.maxFace) := by
  induction h with
  | none => simp
  | next _ _ ih => simp [ih]

theorem size_draws (h : table.Drawn roller sides values last) :
    last.draws.size = table.draws.size + values.length := by
  rw [h.draws_eq, ← Array.length_toList, Array.toList_appendList]
  simp

end Table.Drawn

/-! ## Decisions -/

namespace Rolling

/-- With every roller, the computation comes to an answer just if the roller gives
values for which `post` holds of the answer, and these are what it draws. -/
def Decides (sides : Sides) (x : Rolling σ α) (post : List Value → α → Prop) :
    Prop :=
  ∀ (roller : Roller σ) (table last : Table σ) (a : α),
    x roller table = (.ok a, last) ↔
      ∃ values, table.Drawn roller sides values last ∧ post values a

variable {sides : Sides}

theorem Decides.congr {x : Rolling σ α} {post post' : List Value → α → Prop}
    (h : Decides sides x post) (hPost : ∀ values a, post values a ↔ post' values a) :
    Decides sides x post' := by
  intro roller table last a
  rw [h roller table last a]
  exact exists_congr fun values => and_congr_right fun _ => hPost values a

theorem decides_pure (a : α) :
    Decides sides (pure a : Rolling σ α) fun values b => values = [] ∧ b = a := by
  intro roller table last b
  rw [pure_apply]
  constructor
  · rintro ⟨⟩
    exact ⟨[], .none table, rfl, rfl⟩
  · rintro ⟨_, hDrawn, rfl, rfl⟩
    rw [Table.Drawn.nil_iff.1 hDrawn]

/-- What decides on a sequence is what decides on its first part, and then on what
follows its answer. -/
theorem Decides.bind {x : Rolling σ α} {f : α → Rolling σ β}
    {first : List Value → α → Prop} {next : α → List Value → β → Prop}
    (hx : Decides sides x first)
    (hf : ∀ values a, first values a → Decides sides (f a) (next a)) :
    Decides sides (x >>= f) fun values b =>
      ∃ front back a, values = front ++ back ∧ first front a ∧ next a back b := by
  intro roller table last b
  rw [bind_eq_ok_iff]
  constructor
  · rintro ⟨a, middle, hRun, hNext⟩
    obtain ⟨front, hDrawn, hFirst⟩ := (hx roller table middle a).1 hRun
    obtain ⟨back, hMore, hBack⟩ := (hf front a hFirst roller middle last b).1 hNext
    exact ⟨front ++ back, Table.Drawn.append_iff.2 ⟨middle, hDrawn, hMore⟩,
      front, back, a, rfl, hFirst, hBack⟩
  · rintro ⟨_, hDrawn, front, back, a, rfl, hFirst, hBack⟩
    obtain ⟨middle, hFront, hMore⟩ := Table.Drawn.append_iff.1 hDrawn
    exact ⟨a, middle, (hx roller table middle a).2 ⟨front, hFront, hFirst⟩,
      (hf front a hFirst roller middle last b).2 ⟨back, hMore, hBack⟩⟩

/-- A sequence that ends with an answer made of the one before. -/
theorem Decides.bind_pure {x : Rolling σ α} {f : α → β}
    {post : List Value → α → Prop} (hx : Decides sides x post) :
    Decides sides (x >>= fun a => pure (f a)) fun values b =>
      ∃ a, post values a ∧ b = f a := by
  refine (hx.bind fun _ a _ => decides_pure (f a)).congr fun values b => ?_
  constructor
  · rintro ⟨front, _, a, rfl, hFirst, rfl, rfl⟩
    rw [List.append_nil]
    exact ⟨a, hFirst, rfl⟩
  · rintro ⟨a, hFirst, rfl⟩
    exact ⟨values, [], a, (List.append_nil values).symm, hFirst, rfl, rfl⟩

theorem decides_throwDie :
    Decides sides (throwDie sides : Rolling σ Die) fun values die =>
      ∃ v, values = [v] ∧ die = .ofFace v := by
  intro roller table last die
  rw [throwDie, bind_eq_ok_iff]
  constructor
  · rintro ⟨v, middle, hRun, ⟨⟩⟩
    rw [draw] at hRun
    cases hDraw : roller.draw table.state sides.minFace sides.maxFace with
    | error halt =>
        rw [hDraw] at hRun
        cases hRun
    | ok answer =>
        obtain ⟨v, state⟩ := answer
        rw [hDraw] at hRun
        cases hRun
        exact ⟨[v], .next hDraw (.none _), v, rfl, rfl⟩
  · rintro ⟨_, hDrawn, v, rfl, rfl⟩
    cases hDrawn with
    | next hDraw hRest =>
        rw [Table.Drawn.nil_iff.1 hRest]
        refine ⟨v, _, ?_, rfl⟩
        rw [draw, hDraw]

/-- A step that cannot fail is none at all. -/
theorem ofExcept_ok_bind (a : α) (f : α → Rolling σ β) :
    ofExcept (.ok a) >>= f = f a := rfl

/-- A sequence that starts with the throw of a die. -/
theorem decides_throwDie_bind {f : Die → Rolling σ β}
    {next : Value → List Value → β → Prop}
    (hf : ∀ v, Decides sides (f (.ofFace v)) (next v)) :
    Decides sides (throwDie sides >>= f) fun values b =>
      ∃ v more, values = v :: more ∧ next v more b := by
  have hNext : ∀ values die, (∃ v, values = [v] ∧ die = Die.ofFace v) →
      Decides sides (f die) (next die.face) := by
    rintro _ _ ⟨v, rfl, rfl⟩
    exact hf v
  refine (decides_throwDie.bind hNext).congr fun values b => ?_
  constructor
  · rintro ⟨_, more, _, rfl, ⟨v, rfl, rfl⟩, hMore⟩
    exact ⟨v, more, rfl, hMore⟩
  · rintro ⟨v, more, rfl, hMore⟩
    exact ⟨[v], more, .ofFace v, rfl, ⟨v, rfl, rfl⟩, hMore⟩

end Rolling

end DiceFormula
