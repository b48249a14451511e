import DiceFormula.Proofs.Rolling

/-!
# What a computation draws

A computation learns nothing of the roller but the values it is given. What it
does is therefore told by three things: the intervals it asks for, what it
makes of the values it is given, and that it goes on for as long as there is a
value. `Ensures` says all of that of a computation, for every roller and every
table at once; the rules below follow the ways in which computations are put
together.

## Main results

* `Ensures.bind`, `Ensures.run_bind` — a sequence draws what its parts draw.
* `ensures_throwDie` — a die shows the value that was drawn for it.
* `Ensures.of_run_eq_ok` — what is ensured holds of a run that gave an answer.
-/

namespace DiceFormula.Rolling

variable {σ α β ε : Type} {asks : Value → Value → Prop}

/-- With every roller, the computation asks for values of intervals that `asks`
admits only, and halts only where the roller gives no value for one of them.
Where it does not halt, `post` holds of the values drawn and the answer. -/
def Ensures (asks : Value → Value → Prop) (x : Rolling σ α)
    (post : List Value → α → Prop) : Prop :=
  ∀ (roller : Roller σ) (table : Table σ), ∃ drawn : List Draw,
    (x roller table).2.draws = table.draws ++ drawn ∧
      (∀ draw ∈ drawn, asks draw.lo draw.hi) ∧
      (∀ a, (x roller table).1 = .ok a → post (drawn.map Draw.value) a) ∧
      ∀ halt, (x roller table).1 = .error halt → ∃ lo hi, asks lo hi ∧
        roller.draw (x roller table).2.state lo hi = .error halt

/-! ## Single steps -/

/-- A step that answers at once and leaves the draws as they are. -/
theorem ensures_of_run_eq {x : Rolling σ α} {post : List Value → α → Prop}
    {a : α} (hPost : post [] a)
    (hRun : ∀ roller table, ∃ last, x roller table = (.ok a, last) ∧
      last.draws = table.draws) : Ensures asks x post := by
  intro roller table
  obtain ⟨last, hRun, hDraws⟩ := hRun roller table
  rw [hRun]
  refine ⟨[], by simp [hDraws], nofun, ?_, nofun⟩
  rintro _ ⟨⟩
  exact hPost

theorem ensures_pure {a : α} {post : List Value → α → Prop} (h : post [] a) :
    Ensures asks (pure a : Rolling σ α) post :=
  ensures_of_run_eq h fun _ table => ⟨table, rfl, rfl⟩

theorem ensures_note (record : Log.Record) :
    Ensures asks (note record : Rolling σ Unit) fun values _ => values = [] :=
  ensures_of_run_eq rfl fun _ table => ⟨table.noted record, rfl, rfl⟩

theorem ensures_ofLogged (x : Logged α) :
    Ensures asks (ofLogged x : Rolling σ α) fun values a =>
      values = [] ∧ a = x.value :=
  ensures_of_run_eq ⟨rfl, rfl⟩ fun _ table =>
    ⟨table.logged x.records, rfl, rfl⟩

theorem ensures_ofExcept {x : Except Halt α} {a : α} (hx : x = .ok a) :
    Ensures asks (ofExcept x : Rolling σ α) fun values b =>
      values = [] ∧ b = a :=
  ensures_of_run_eq ⟨rfl, rfl⟩ fun _ table => ⟨table, by rw [hx]; rfl, rfl⟩

theorem ensures_draw {lo hi : Value} (h : asks lo hi) :
    Ensures asks (draw lo hi : Rolling σ Value) fun values v =>
      values = [v] := by
  intro roller table
  cases hDraw : roller.draw table.state lo hi with
  | error halt =>
      have hRun : draw lo hi roller table = (.error halt, table) := by
        simp only [draw, hDraw]
      rw [hRun]
      refine ⟨[], by simp, nofun, nofun, ?_⟩
      rintro _ ⟨⟩
      exact ⟨lo, hi, h, hDraw⟩
  | ok answer =>
      obtain ⟨v, state⟩ := answer
      have hRun : draw lo hi roller table =
          (.ok v, { table with state, draws := table.draws.push ⟨lo, hi, v⟩ }) := by
        simp only [draw, hDraw]
      rw [hRun]
      refine ⟨[⟨lo, hi, v⟩], by simp, ?_, ?_, nofun⟩
      · intro draw hMem
        rw [List.mem_singleton.1 hMem]
        exact h
      · rintro _ ⟨⟩
        rfl

/-! ## Sequences -/

theorem Ensures.mono {x : Rolling σ α} {post post' : List Value → α → Prop}
    (h : Ensures asks x post) (hImp : ∀ values a, post values a → post' values a) :
    Ensures asks x post' := by
  intro roller table
  obtain ⟨drawn, hDraws, hAsks, hPost, hHalt⟩ := h roller table
  exact ⟨drawn, hDraws, hAsks, fun a ha => hImp _ a (hPost a ha), hHalt⟩

theorem Ensures.widen {asks' : Value → Value → Prop} {x : Rolling σ α}
    {post : List Value → α → Prop} (h : Ensures asks x post)
    (hImp : ∀ lo hi, asks lo hi → asks' lo hi) : Ensures asks' x post := by
  intro roller table
  obtain ⟨drawn, hDraws, hAsks, hPost, hHalt⟩ := h roller table
  refine ⟨drawn, hDraws, fun draw hMem => hImp _ _ (hAsks draw hMem), hPost, ?_⟩
  intro halt hRun
  obtain ⟨lo, hi, hAsk, hDraw⟩ := hHalt halt hRun
  exact ⟨lo, hi, hImp lo hi hAsk, hDraw⟩

/-- A sequence draws what its first part draws, and then what its second part
draws after that. -/
theorem Ensures.bind {x : Rolling σ α} {f : α → Rolling σ β}
    {middle : List Value → α → Prop} {post : List Value → β → Prop}
    (hx : Ensures asks x middle)
    (hf : ∀ values a, middle values a →
      Ensures asks (f a) fun more b => post (values ++ more) b) :
    Ensures asks (x >>= f) post := by
  intro roller table
  obtain ⟨drawn, hDraws, hAsks, hMiddle, hHalt⟩ := hx roller table
  rcases hRun : x roller table with ⟨halt | a, table'⟩
  · rw [hRun] at hDraws hHalt
    rw [bind_eq_of_error hRun]
    refine ⟨drawn, hDraws, hAsks, nofun, ?_⟩
    rintro _ ⟨⟩
    exact hHalt halt rfl
  · rw [hRun] at hDraws hMiddle
    rw [bind_eq_of_ok hRun]
    obtain ⟨more, hMoreDraws, hMoreAsks, hPost, hHalt⟩ :=
      hf _ a (hMiddle a rfl) roller table'
    refine ⟨drawn ++ more, ?_, ?_, ?_, hHalt⟩
    · rw [hMoreDraws, hDraws]
      apply Array.ext'
      simp
    · intro draw hMem
      exact (List.mem_append.1 hMem).elim (hAsks draw) (hMoreAsks draw)
    · intro b hb
      rw [List.map_append]
      exact hPost b hb

/-- A sequence that ends with an answer made of the one before. -/
theorem Ensures.bind_pure {x : Rolling σ α} {f : α → β}
    {middle : List Value → α → Prop} {post : List Value → β → Prop}
    (hx : Ensures asks x middle)
    (h : ∀ values a, middle values a → post values (f a)) :
    Ensures asks (x >>= fun a => pure (f a)) post := by
  refine hx.bind fun values a hMiddle => ensures_pure ?_
  rw [List.append_nil]
  exact h values a hMiddle

/-- A sequence of steps with errors: an error of the first step is the answer
of the sequence, and nothing is drawn after it. -/
theorem Ensures.run_bind {x : ExceptT ε (Rolling σ) α}
    {f : α → ExceptT ε (Rolling σ) β} {middle : List Value → Except ε α → Prop}
    {post : List Value → Except ε β → Prop} (hx : Ensures asks x.run middle)
    (hError : ∀ values err, middle values (.error err) → post values (.error err))
    (hf : ∀ values a, middle values (.ok a) →
      Ensures asks (f a).run fun more b => post (values ++ more) b) :
    Ensures asks (x >>= f).run post := by
  have hRun : (x >>= f).run = x.run >>= ExceptT.bindCont f := rfl
  rw [hRun]
  refine hx.bind fun values result hMiddle => ?_
  cases result with
  | error err =>
      refine ensures_pure ?_
      rw [List.append_nil]
      exact hError values err hMiddle
  | ok a => exact hf values a hMiddle

/-- A step without errors comes first. -/
theorem Ensures.run_lift_bind {x : Rolling σ α}
    {f : α → ExceptT ε (Rolling σ) β} {middle : List Value → α → Prop}
    {post : List Value → Except ε β → Prop} (hx : Ensures asks x middle)
    (hf : ∀ values a, middle values a →
      Ensures asks (f a).run fun more b => post (values ++ more) b) :
    Ensures asks (ExceptT.lift x >>= f).run post := by
  rw [ExceptT.run_bind_lift]
  exact hx.bind hf

/-- Putting the error into another type changes nothing else. -/
theorem Ensures.run_adapt {ε' : Type} {f : ε → ε'}
    {x : ExceptT ε (Rolling σ) α} {post : List Value → Except ε α → Prop}
    (h : Ensures asks x.run post) :
    Ensures asks (ExceptT.adapt f x).run fun values result =>
      ∃ inner, post values inner ∧ result = inner.mapError f := by
  have hRun : (ExceptT.adapt f x).run = Except.mapError f <$> x.run := rfl
  rw [hRun, map_eq_pure_bind]
  exact h.bind_pure fun _ inner hInner => ⟨inner, hInner, rfl⟩

/-- A step that throws nothing, with its error put into another type. -/
theorem ensures_adapt_pure {ε' : Type} (f : ε → ε') (x : Except ε α) :
    Ensures asks
      (ExceptT.adapt f (ExceptT.mk (pure x : Rolling σ (Except ε α)))).run
      fun values result => values = [] ∧ result = x.mapError f := by
  cases x <;> exact ensures_pure ⟨rfl, rfl⟩

/-! ## Dice -/

/-- A die shows the value that was drawn for it. -/
theorem ensures_throwDie {sides : Sides} (h : asks sides.minFace sides.maxFace) :
    Ensures asks (throwDie sides : Rolling σ Die) fun values die =>
      ∃ v, values = [v] ∧ die = .ofFace v := by
  exact (ensures_draw h).bind_pure fun values v hValues => ⟨v, hValues, rfl⟩

/-! ## Runs -/

/-- What is ensured holds of a run that gave an answer. -/
theorem Ensures.of_run_eq_ok {x : Rolling σ α} {post : List Value → α → Prop}
    (h : Ensures asks x post) {roller : Roller σ} {table last : Table σ} {a : α}
    (hRun : x roller table = (.ok a, last)) :
    ∃ drawn : List Draw, last.draws = table.draws ++ drawn ∧
      (∀ draw ∈ drawn, asks draw.lo draw.hi) ∧
      post (drawn.map Draw.value) a := by
  obtain ⟨drawn, hDraws, hAsks, hPost, -⟩ := h roller table
  rw [hRun] at hDraws hPost
  exact ⟨drawn, hDraws, hAsks, hPost a rfl⟩

end DiceFormula.Rolling
