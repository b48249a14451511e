import DiceFormula.Text.Reader
import Mathlib.Data.List.DropRight

/-!
# Laws of readers

What the combinators of readers do to a text, one equation each, and the two
properties that tie a reader to the texts it is meant for.

A reader is `Sound` for a relation between texts and values if all it ever
takes is a text related to the value it answers. It is `Complete` for the
relation if it takes every related text, and nothing beyond it, where a text
follows that could not belong to the piece; `Clear` says which those are.
A reader that is both reads exactly the relation.

## Main results

* `turns_of_many` — a repetition is a sequence of turns that ends where no
  further one makes progress; all inductions on repetitions go along it.
* `Sound.orElse` — of two alternatives it does not matter which was taken.
* `Sound.padded`, `padded_eq_some` — blanks around a piece are free.
-/

namespace DiceFormula.Text.Reader

variable {α β : Type}

/-! ## Equations -/

theorem bind_apply (x : Reader α) (f : α → Reader β) (s : List Char) :
    (x >>= f) s = (x s).bind fun r => f r.1 r.2 := rfl

theorem pure_apply (a : α) (s : List Char) :
    (pure a : Reader α) s = some (a, s) := rfl

theorem map_apply (g : α → β) (x : Reader α) (s : List Char) :
    (g <$> x) s = (x s).map fun r => (g r.1, r.2) := by
  show (x s).bind _ = _
  cases x s <;> rfl

theorem seqRight_apply (x : Reader α) (y : Reader β) (s : List Char) :
    (x *> y) s = (x s).bind fun r => y r.2 := rfl

theorem orElse_apply (x y : Reader α) (s : List Char) :
    (x <|> y) s = (x s).or (y s) := by
  show (x s <|> y s) = _
  cases x s <;> rfl

theorem optional_apply (x : Reader α) (s : List Char) :
    (optional x) s =
      some (match x s with
        | some (a, rest) => (some a, rest)
        | none => (none, s)) := by
  show ((some <$> x) <|> pure none) s = _
  rw [orElse_apply, map_apply, pure_apply]
  cases x s <;> rfl

theorem ofOption_apply (value : Option α) (s : List Char) :
    ofOption value s = value.map fun a => (a, s) := rfl

theorem padded_apply (item : Reader α) (s : List Char) :
    padded item s =
      (item (s.dropWhile isBlank)).map fun r =>
        (r.1, r.2.dropWhile isBlank) := by
  show (item (s.dropWhile isBlank)).bind _ = _
  cases item (s.dropWhile isBlank) <;> rfl

/-- Sequences are taken apart at the place where the first part ends. -/
theorem bind_eq_some_iff {x : Reader α} {f : α → Reader β} {s rest : List Char}
    {b : β} :
    (x >>= f) s = some (b, rest) ↔
      ∃ a mid, x s = some (a, mid) ∧ f a mid = some (b, rest) := by
  rw [bind_apply, Option.bind_eq_some_iff]
  constructor
  · rintro ⟨⟨a, mid⟩, hx, hf⟩
    exact ⟨a, mid, hx, hf⟩
  · rintro ⟨a, mid, hx, hf⟩
    exact ⟨(a, mid), hx, hf⟩

theorem map_eq_some_iff {g : α → β} {x : Reader α} {s rest : List Char}
    {b : β} :
    (g <$> x) s = some (b, rest) ↔ ∃ a, x s = some (a, rest) ∧ g a = b := by
  rw [map_apply, Option.map_eq_some_iff]
  constructor
  · rintro ⟨⟨a, mid⟩, hx, hr⟩
    cases hr
    exact ⟨a, hx, rfl⟩
  · rintro ⟨a, hx, rfl⟩
    exact ⟨(a, rest), hx, rfl⟩

theorem seqRight_eq_some_iff {x : Reader α} {y : Reader β}
    {s rest : List Char} {b : β} :
    (x *> y) s = some (b, rest) ↔
      ∃ a mid, x s = some (a, mid) ∧ y mid = some (b, rest) := by
  rw [seqRight_apply, Option.bind_eq_some_iff]
  constructor
  · rintro ⟨⟨a, mid⟩, hx, hy⟩
    exact ⟨a, mid, hx, hy⟩
  · rintro ⟨a, mid, hx, hy⟩
    exact ⟨(a, mid), hx, hy⟩

/-! ## Fixed texts -/

theorem exactly_eq_some_iff {text : String} {s rest : List Char} {u : Unit} :
    exactly text s = some (u, rest) ↔ s = text.toList ++ rest := by
  have hPrefix : ∀ t s : List Char,
      t.isPrefixOf? s = some rest ↔ s = t ++ rest := by
    intro t
    induction t with
    | nil =>
        intro s
        simp [List.isPrefixOf?]
    | cons c t ih =>
        intro s
        cases s with
        | nil => simp [List.isPrefixOf?]
        | cons d s =>
            by_cases hcd : c = d
            · subst hcd
              simp [List.isPrefixOf?, ih]
            · have hdc : d ≠ c := fun h => hcd h.symm
              simp [List.isPrefixOf?, hcd, hdc]
  rw [exactly, Option.map_eq_some_iff, ← hPrefix]
  constructor
  · rintro ⟨rest', h, hr⟩
    cases hr
    exact h
  · intro h
    exact ⟨rest, h, rfl⟩

theorem exactly_append (text : String) (rest : List Char) :
    exactly text (text.toList ++ rest) = some ((), rest) :=
  exactly_eq_some_iff.2 rfl

/-! ## Repetitions -/

/-- `item` takes the values of a list one after the other from `s` and leaves
`rest`, where it would not get any further. -/
inductive Turns (item : Reader α) : List Char → List α → List Char → Prop
  | stop {s : List Char}
      (h : ∀ a rest, item s = some (a, rest) → s.length ≤ rest.length) :
      Turns item s [] s
  | turn {s mid rest : List Char} {a : α} {as : List α}
      (h : item s = some (a, mid)) (hShorter : mid.length < s.length)
      (hMore : Turns item mid as rest) : Turns item s (a :: as) rest

theorem Turns.many_eq {item : Reader α} {s rest : List Char} {as : List α}
    (h : Turns item s as rest) : many item s = some (as, rest) := by
  induction h with
  | @stop s hStop =>
      rw [many]
      split
      · rfl
      · next a rest hItem =>
        have hLonger := hStop a rest hItem
        rw [if_neg (by omega)]
  | turn hItem hShorter _ ih => exact many_of_some hItem hShorter ih

/-- A repetition always ends, after some number of turns. -/
theorem exists_turns (item : Reader α) (s : List Char) :
    ∃ as rest, Turns item s as rest := by
  induction hn : s.length using Nat.strongRecOn generalizing s with
  | ind n ih =>
      by_cases hStop :
          ∀ a rest, item s = some (a, rest) → s.length ≤ rest.length
      · exact ⟨[], s, .stop hStop⟩
      · simp only [not_forall, Nat.not_le] at hStop
        obtain ⟨a, mid, hItem, hShorter⟩ := hStop
        obtain ⟨as, rest, hMore⟩ := ih mid.length (by omega) mid rfl
        exact ⟨a :: as, rest, .turn hItem hShorter hMore⟩

theorem turns_of_many {item : Reader α} {s rest : List Char} {as : List α}
    (h : many item s = some (as, rest)) : Turns item s as rest := by
  obtain ⟨as', rest', hTurns⟩ := exists_turns item s
  have hMany := hTurns.many_eq
  rw [h] at hMany
  cases hMany
  exact hTurns

/-! ## Soundness -/

/-- All the reader takes is texts that `R` relates to the values it
answers. -/
def Sound (reader : Reader α) (R : List Char → α → Prop) : Prop :=
  ∀ s a rest, reader s = some (a, rest) → ∃ p, s = p ++ rest ∧ R p a

theorem Sound.orElse {x y : Reader α} {R : List Char → α → Prop}
    (hx : Sound x R) (hy : Sound y R) : Sound (x <|> y) R := by
  intro s a rest h
  rw [orElse_apply, Option.or_eq_some_iff] at h
  rcases h with h | ⟨-, h⟩
  · exact hx s a rest h
  · exact hy s a rest h

theorem Sound.map {g : α → β} {reader : Reader α} {R : List Char → α → Prop}
    {S : List Char → β → Prop} (h : Sound reader R)
    (hRS : ∀ p a, R p a → S p (g a)) : Sound (g <$> reader) S := by
  intro s b rest hRead
  obtain ⟨a, hPiece, rfl⟩ := map_eq_some_iff.1 hRead
  obtain ⟨p, hs, hp⟩ := h s a rest hPiece
  exact ⟨p, hs, hRS p a hp⟩

/-- A fixed text in front of a piece stands in front of the piece's text. -/
theorem Sound.exactly_map {text : String} {g : α → β} {reader : Reader α}
    {R : List Char → α → Prop} {S : List Char → β → Prop}
    (h : Sound reader R) (hRS : ∀ p a, R p a → S (text.toList ++ p) (g a)) :
    Sound (exactly text *> g <$> reader) S := by
  intro s b rest hRead
  obtain ⟨u, mid, hText, hMap⟩ := seqRight_eq_some_iff.1 hRead
  obtain ⟨a, hPiece, rfl⟩ := map_eq_some_iff.1 hMap
  obtain ⟨p, rfl, hp⟩ := h mid a rest hPiece
  refine ⟨text.toList ++ p, ?_, hRS p a hp⟩
  rw [exactly_eq_some_iff.1 hText, List.append_assoc]

/-- A piece that may be left out. -/
inductive OrNothing (R : List Char → α → Prop) :
    List Char → Option α → Prop
  | piece {s : List Char} {a : α} (h : R s a) : OrNothing R s (some a)
  | nothing : OrNothing R [] none

theorem Sound.optional {reader : Reader α} {R : List Char → α → Prop}
    (h : Sound reader R) : Sound (optional reader) (OrNothing R) := by
  intro s o rest hRead
  rw [optional_apply, Option.some.injEq] at hRead
  split at hRead
  · next a _ hPiece =>
    cases hRead
    obtain ⟨p, hs, hp⟩ := h s a rest hPiece
    exact ⟨p, hs, .piece hp⟩
  · cases hRead
    exact ⟨[], rfl, .nothing⟩

theorem sound_exactly_pure {text : String} {a : α} {R : List Char → α → Prop}
    (h : R text.toList a) : Sound (exactly text *> pure a) R := by
  intro s b rest hRead
  obtain ⟨u, mid, hText, hPure⟩ := seqRight_eq_some_iff.1 hRead
  rw [pure_apply] at hPure
  cases hPure
  exact ⟨text.toList, exactly_eq_some_iff.1 hText, h⟩

/-! ## Completeness -/

/-- The text does not start with a digit or one of the given characters. -/
def Clear (stops : List Char) (rest : List Char) : Prop :=
  ∀ c ∈ rest.head?, c.isDigit = false ∧ c ∉ stops

theorem clear_nil (stops : List Char) : Clear stops [] := by
  intro c hc
  cases hc

theorem clear_cons {stops rest : List Char} {c : Char}
    (hDigit : c.isDigit = false) (hStops : c ∉ stops) :
    Clear stops (c :: rest) := by
  intro d hd
  cases hd
  exact ⟨hDigit, hStops⟩

theorem Clear.mono {stops stops' rest : List Char} (h : Clear stops' rest)
    (hStops : ∀ c ∈ stops, c ∈ stops') : Clear stops rest :=
  fun c hc => ⟨(h c hc).1, fun hMem => (h c hc).2 (hStops c hMem)⟩

theorem Clear.head?_ne {stops rest : List Char} {c : Char}
    (h : Clear stops rest) (hc : c ∈ stops) : rest.head? ≠ some c :=
  fun hHead => (h c hHead).2 hc

/-- The reader takes every text that `R` relates to a value, and no more than
that, where it stands before a text that is clear of `stops`. -/
def Complete (reader : Reader α) (R : List Char → α → Prop)
    (stops : List Char) : Prop :=
  ∀ p a rest, R p a → Clear stops rest → reader (p ++ rest) = some (a, rest)

theorem Complete.optional {reader : Reader α} {R : List Char → α → Prop}
    {stops : List Char} (h : Complete reader R stops)
    (hNone : ∀ rest, Clear stops rest → reader rest = none) :
    Complete (optional reader) (OrNothing R) stops := by
  intro p o rest hp hRest
  rw [optional_apply]
  cases hp with
  | piece hp => rw [h p _ rest hp hRest]
  | nothing => rw [List.nil_append, hNone rest hRest]

/-! ## Blanks -/

theorem isBlank_of_isDigit {c : Char} (h : c.isDigit = true) :
    isBlank c = false := by
  have hRange : 48 ≤ c.toNat ∧ c.toNat ≤ 57 := Char.isDigit_iff_toNat.1 h
  simp [isBlank, blankIntervals]
  omega

/-- The text `t` is `s` with blanks around it. -/
def IsPadded (s t : List Char) : Prop :=
  ∃ before after, (∀ c ∈ before, isBlank c = true) ∧
    (∀ c ∈ after, isBlank c = true) ∧ t = before ++ s ++ after

theorem isPadded_self (s : List Char) : IsPadded s s :=
  ⟨[], [], by simp, by simp, by simp⟩

theorem dropWhile_isBlank_append {before : List Char}
    (h : ∀ c ∈ before, isBlank c = true) (s : List Char) :
    (before ++ s).dropWhile isBlank = s.dropWhile isBlank :=
  List.dropWhile_append_of_pos h

theorem dropWhile_isBlank_dropWhile (s : List Char) :
    (s.dropWhile isBlank).dropWhile isBlank = s.dropWhile isBlank :=
  List.dropWhile_idempotent isBlank s

theorem blank_of_mem_takeWhile {s : List Char} {c : Char}
    (h : c ∈ s.takeWhile isBlank) : isBlank c = true :=
  List.mem_takeWhile_imp h

theorem Sound.padded {item : Reader α} {R S : List Char → α → Prop}
    (h : Sound item R) (hRS : ∀ p q a, R p a → IsPadded p q → S q a) :
    Sound (padded item) S := by
  intro s a rest hRead
  rw [padded_apply, Option.map_eq_some_iff] at hRead
  obtain ⟨⟨a', mid⟩, hItem, hRest⟩ := hRead
  cases hRest
  obtain ⟨p, hs, hp⟩ := h _ a' mid hItem
  refine ⟨s.takeWhile isBlank ++ p ++ mid.takeWhile isBlank, ?_,
    hRS p _ a' hp ⟨_, _, fun _ => blank_of_mem_takeWhile,
      fun _ => blank_of_mem_takeWhile, rfl⟩⟩
  calc s = s.takeWhile isBlank ++ s.dropWhile isBlank :=
        (List.takeWhile_append_dropWhile).symm
    _ = s.takeWhile isBlank ++ (p ++
          (mid.takeWhile isBlank ++ mid.dropWhile isBlank)) := by
        rw [hs, List.takeWhile_append_dropWhile]
    _ = _ := by simp only [List.append_assoc]

/-- A padded piece is read with its blanks and those behind them. -/
theorem padded_eq_some {item : Reader α} {s t rest : List Char} {a : α}
    (hPadded : IsPadded s t) (hHead : ∀ c ∈ s.head?, isBlank c = false)
    (hNonempty : s ≠ [])
    (h : ∀ after, (∀ c ∈ after, isBlank c = true) →
      item (s ++ (after ++ rest)) = some (a, after ++ rest)) :
    padded item (t ++ rest) = some (a, rest.dropWhile isBlank) := by
  obtain ⟨before, after, hBefore, hAfter, rfl⟩ := hPadded
  have hStart : (before ++ s ++ after ++ rest).dropWhile isBlank =
      s ++ (after ++ rest) := by
    rw [List.append_assoc, List.append_assoc,
      dropWhile_isBlank_append hBefore]
    cases s with
    | nil => exact absurd rfl hNonempty
    | cons c s => simp [hHead c rfl]
  rw [padded_apply, hStart, h after hAfter, Option.map_some,
    dropWhile_isBlank_append hAfter]

end DiceFormula.Text.Reader
