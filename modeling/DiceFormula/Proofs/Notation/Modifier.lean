import DiceFormula.Proofs.Notation.Numeral

/-!
# Reading modifiers

The readers of conditions and modifiers take exactly what the grammar derives.
Where one modifier is spelled like the beginning of another, the order of the
alternatives decides: `kh` is tried before `k` and `rr` before `r`. That costs
nothing for `k`, since no modifier begins with `h` or `l`. For `r` it does: two
letters `r` are always taken together, as the grammar of lists demands.

## Main results

* `sound_modifier`, `complete_modifier` — a modifier is read as the grammar
  derives it.
* `sound_modifiers`, `complete_modifiers` — and so is a list of them.
-/

namespace DiceFormula

open Text Text.Reader

/-- The characters, besides digits, that may go on a modifier. -/
def innerStops : List Char := ['h', 'l', '=', '<', '>']

/-- The characters that modifiers begin with. -/
def modifierStarts : List Char := ['k', 'd', 'r', '!', 'm']

/-! ## Conditions -/

theorem sound_comparison :
    Sound (Comparison.reader <|> pure .eq) Comparison.Derives := by
  have hSymbol : Sound Comparison.reader Comparison.Derives :=
    (sound_exactly_pure .ge).orElse <| (sound_exactly_pure .le).orElse <|
      (sound_exactly_pure .gt).orElse <| (sound_exactly_pure .lt).orElse <|
        sound_exactly_pure .eq
  refine hSymbol.orElse ?_
  intro s c rest h
  rw [pure_apply] at h
  cases h
  exact ⟨[], rfl, .unwritten⟩

/-- A comparison stands before a value, hence before a digit. -/
theorem comparison_append {s rest : List Char} {c : Comparison} {d : Char}
    (h : c.Derives s) (hd : d.isDigit = true) :
    (Comparison.reader <|> pure .eq : Reader Comparison) (s ++ d :: rest) =
      some (c, d :: rest) := by
  have hEq : ¬ '=' = d := by
    rintro rfl
    exact absurd hd (by decide)
  have hLt : ¬ '<' = d := by
    rintro rfl
    exact absurd hd (by decide)
  have hGt : ¬ '>' = d := by
    rintro rfl
    exact absurd hd (by decide)
  cases h <;>
    simp [Comparison.reader, orElse_apply, seqRight_apply, pure_apply, exactly,
      List.isPrefixOf?, hEq, hLt, hGt]

theorem sound_condition : Sound Condition.reader Condition.Derives := by
  intro s condition rest h
  obtain ⟨c, mid, hComparison, h⟩ := bind_eq_some_iff.1 h
  obtain ⟨v, mid', hValue, hPure⟩ := bind_eq_some_iff.1 h
  rw [pure_apply] at hPure
  cases hPure
  obtain ⟨p, rfl, hp⟩ := sound_comparison s c mid hComparison
  obtain ⟨q, rfl, hq⟩ := sound_value mid v rest hValue
  exact ⟨p ++ q, (List.append_assoc p q rest).symm, .mk hp hq⟩

theorem complete_condition (stops : List Char) :
    Complete Condition.reader Condition.Derives stops := by
  intro p condition rest hp hRest
  cases hp with
  | @mk s t c v hComparison hValue =>
      obtain ⟨d, u, rfl, hd⟩ := hValue.exists_head
      have hRead := complete_value stops (d :: u) v rest hValue hRest
      rw [List.append_assoc]
      exact bind_eq_some_iff.2 ⟨c, _, comparison_append hComparison hd,
        bind_eq_some_iff.2 ⟨v, rest, hRead, rfl⟩⟩

theorem condition_reader_eq_none {rest : List Char}
    (h : Clear innerStops rest) : Condition.reader rest = none := by
  have hValue : Value.reader rest = none :=
    value_reader_eq_none fun c hc => (h c hc).1
  have hComparison : (Comparison.reader <|> pure .eq : Reader Comparison) rest =
      some (.eq, rest) := by
    cases rest with
    | nil => rfl
    | cons d rest =>
        have hStops := (h d rfl).2
        simp only [innerStops, List.mem_cons, not_or] at hStops
        obtain ⟨-, -, hEq, hLt, hGt, -⟩ := hStops
        have hEq' : ¬ '=' = d := fun h => hEq h.symm
        have hLt' : ¬ '<' = d := fun h => hLt h.symm
        have hGt' : ¬ '>' = d := fun h => hGt h.symm
        simp [Comparison.reader, orElse_apply, seqRight_apply, pure_apply,
          exactly, List.isPrefixOf?, hEq', hLt', hGt']
  show ((Comparison.reader <|> pure .eq : Reader Comparison) >>= fun c =>
    Value.reader >>= fun v => pure (Condition.mk c v)) rest = none
  rw [bind_apply, hComparison, Option.bind_some, bind_apply, hValue,
    Option.bind_none]

/-- A condition does not begin like a modifier. -/
theorem Condition.Derives.head?_ne {s : List Char} {condition : Condition}
    (h : condition.Derives s) (rest : List Char) :
    (s ++ rest).head? ≠ some 'r' := by
  cases h with
  | @mk s t c v hComparison hValue =>
      obtain ⟨d, u, rfl, hd⟩ := hValue.exists_head
      have hr : d ≠ 'r' := by
        rintro rfl
        exact absurd hd (by decide)
      cases hComparison <;> simp [hr]

theorem complete_optional_condition :
    Complete (optional Condition.reader) (OrNothing Condition.Derives)
      innerStops :=
  (complete_condition innerStops).optional fun _ h => condition_reader_eq_none h

/-! ## Single modifiers -/

private theorem isPrefixOf?_singleton {c : Char} {t : List Char}
    (h : t.head? ≠ some c) : [c].isPrefixOf? t = none := by
  cases t with
  | nil => rfl
  | cons d t =>
      have hcd : ¬ c = d := fun hEq => h (hEq ▸ rfl)
      simp [List.isPrefixOf?, hcd]

theorem sound_modifier : Sound Modifier.reader Modifier.Derives := by
  have hCondition := sound_condition.optional
  exact (sound_count.exactly_map fun _ _ => .keepHighest).orElse <|
    (sound_count.exactly_map fun _ _ => .keepLowest).orElse <|
    (sound_count.exactly_map fun _ _ => .keep).orElse <|
    (sound_count.exactly_map fun _ _ => .dropHighest).orElse <|
    (sound_count.exactly_map fun _ _ => .dropLowest).orElse <|
    (hCondition.exactly_map fun _ _ => .rerollAgain).orElse <|
    (hCondition.exactly_map fun _ _ => .rerollOnce).orElse <|
    (hCondition.exactly_map fun _ _ => .explode).orElse <|
    (sound_value.exactly_map fun _ _ => .atLeast).orElse <|
    sound_value.exactly_map fun _ _ => .atMost

/-- Of two letters `r` in a row both are taken. -/
theorem length_le_of_modifier_rr {s rest : List Char} {m : Modifier}
    (h : Modifier.reader ('r' :: 'r' :: s) = some (m, rest)) :
    rest.length ≤ s.length := by
  have hRead : Modifier.reader ('r' :: 'r' :: s) =
      ((Modifier.reroll · true) <$> optional Condition.reader :
        Reader Modifier) s := by
    simp [Modifier.reader, orElse_apply, seqRight_apply, map_apply,
      optional_apply, exactly, List.isPrefixOf?]
  rw [hRead] at h
  obtain ⟨condition, hCondition, -⟩ := map_eq_some_iff.1 h
  obtain ⟨p, rfl, -⟩ := sound_condition.optional s condition rest hCondition
  simp

/-- Before a text that does not go on a modifier, and before no further `r`
if it is a single one, a modifier is read as the grammar derives it. -/
theorem complete_modifier {p rest : List Char} {m : Modifier}
    (hp : m.Derives p) (hRest : Clear innerStops rest)
    (hApart : p = ['r'] → rest.head? ≠ some 'r') :
    Modifier.reader (p ++ rest) = some (m, rest) := by
  have hCount := complete_count innerStops
  have hValue := complete_value innerStops
  cases hp with
  | @keepHighest s n h | @keepLowest s n h | @dropHighest s n h
  | @dropLowest s n h =>
      have hRead := hCount s n rest h hRest
      simp [Modifier.reader, orElse_apply, seqRight_apply, map_apply, exactly,
        List.isPrefixOf?, hRead]
  | @keep s n h =>
      have hRead := hCount s n rest h hRest
      have hHigh : ['h'].isPrefixOf? (s ++ rest) = none :=
        isPrefixOf?_singleton
          (h.clear (by decide) (hRest.head?_ne (by decide)))
      have hLow : ['l'].isPrefixOf? (s ++ rest) = none :=
        isPrefixOf?_singleton
          (h.clear (by decide) (hRest.head?_ne (by decide)))
      simp [Modifier.reader, orElse_apply, seqRight_apply, map_apply, exactly,
        List.isPrefixOf?, hRead, hHigh, hLow]
  | @explode s condition h =>
      have hRead := complete_optional_condition s condition rest h hRest
      simp [Modifier.reader, orElse_apply, seqRight_apply, map_apply, exactly,
        List.isPrefixOf?, hRead]
  | @rerollOnce s condition h =>
      have hRead := complete_optional_condition s condition rest h hRest
      have hNext : ['r'].isPrefixOf? (s ++ rest) = none := by
        apply isPrefixOf?_singleton
        cases h with
        | piece h => exact h.head?_ne rest
        | nothing => exact hApart rfl
      simp [Modifier.reader, orElse_apply, seqRight_apply, map_apply, exactly,
        List.isPrefixOf?, hRead, hNext]
  | @rerollAgain s condition h =>
      have hRead := complete_optional_condition s condition rest h hRest
      simp [Modifier.reader, orElse_apply, seqRight_apply, map_apply, exactly,
        List.isPrefixOf?, hRead]
  | @atLeast s bound h =>
      have hRead := hValue s bound rest h hRest
      simp [Modifier.reader, orElse_apply, seqRight_apply, map_apply, exactly,
        List.isPrefixOf?, hRead]
  | @atMost s bound h =>
      have hRead := hValue s bound rest h hRest
      simp [Modifier.reader, orElse_apply, seqRight_apply, map_apply, exactly,
        List.isPrefixOf?, hRead]

/-! ## Lists of modifiers -/

theorem Modifier.Derives.exists_head {s : List Char} {m : Modifier}
    (h : m.Derives s) : ∃ c t, s = c :: t ∧ c ∈ modifierStarts := by
  cases h <;> exact ⟨_, _, rfl, by decide⟩

theorem Modifier.ListDerives.clear {s rest : List Char} {ms : List Modifier}
    (h : Modifier.ListDerives s ms)
    (hRest : Clear (innerStops ++ modifierStarts) rest) :
    Clear innerStops (s ++ rest) := by
  have hStarts : ∀ c ∈ modifierStarts, c.isDigit = false ∧ c ∉ innerStops := by
    decide
  cases h with
  | nil => exact hRest.mono fun c hc => List.mem_append_left _ hc
  | cons h _ _ =>
      obtain ⟨c, t, rfl, hc⟩ := h.exists_head
      exact clear_cons (hStarts c hc).1 (hStarts c hc).2

theorem modifier_reader_eq_none {rest : List Char}
    (h : Clear (innerStops ++ modifierStarts) rest) :
    Modifier.reader rest = none := by
  cases hRead : Modifier.reader rest with
  | none => rfl
  | some r =>
      obtain ⟨p, hp, hDerives⟩ := sound_modifier rest r.1 r.2 hRead
      obtain ⟨c, t, rfl, hc⟩ := hDerives.exists_head
      rw [hp] at h
      exact absurd (List.mem_append_right _ hc) (h c rfl).2

theorem sound_modifiers :
    Sound (many Modifier.reader) Modifier.ListDerives := by
  intro s ms rest h
  have hTurns := turns_of_many h
  clear h
  induction hTurns with
  | stop _ => exact ⟨[], rfl, .nil⟩
  | @turn s mid rest m ms hRead _ _ ih =>
      obtain ⟨p, rfl, hp⟩ := sound_modifier s m mid hRead
      obtain ⟨q, rfl, hq⟩ := ih
      refine ⟨p ++ q, (List.append_assoc p q rest).symm, .cons hp ?_ hq⟩
      -- A single `r` before another one would have been taken with it.
      rintro rfl hNext
      obtain ⟨t, rfl⟩ : ∃ t, q = 'r' :: t := by
        cases q with
        | nil => cases hNext
        | cons c t =>
            cases hNext
            exact ⟨t, rfl⟩
      have hLength : ('r' :: (t ++ rest)).length ≤ (t ++ rest).length :=
        length_le_of_modifier_rr hRead
      rw [List.length_cons] at hLength
      omega

theorem complete_modifiers :
    Complete (many Modifier.reader) Modifier.ListDerives
      (innerStops ++ modifierStarts) := by
  intro p ms rest hp hRest
  apply Turns.many_eq
  induction hp with
  | nil =>
      apply Turns.stop
      intro m rest' hRead
      rw [List.nil_append, modifier_reader_eq_none hRest] at hRead
      cases hRead
  | @cons s t m ms hs hApart hMore ih =>
      rw [List.append_assoc]
      refine .turn (complete_modifier hs (hMore.clear hRest) ?_) ?_ ih
      · intro hSingle
        cases t with
        | nil => exact hRest.head?_ne (by decide)
        | cons c t => exact hApart hSingle
      · obtain ⟨c, u, rfl, -⟩ := hs.exists_head
        simp only [List.cons_append, List.length_cons, List.length_append]
        omega

end DiceFormula
