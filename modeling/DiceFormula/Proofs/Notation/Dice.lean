import DiceFormula.Proofs.Notation.Modifier

/-!
# Reading sets of dice

A set of dice is read exactly as the grammar derives it. The reader looks for
the count, the letter `d`, the sides and the modifiers in turn, and only then
at the limits on the count and the selections; so a text can be refused after
it has been taken as a whole, but what is accepted is derived.

## Main results

* `sound_dice`, `complete_dice` — a set of dice is read as the grammar derives
  it.
* `Dice.read?_eq_some_iff` — the texts of sets of dice are those whose
  lowercase form the grammar derives, without any blanks.
-/

namespace DiceFormula

open Text Text.Reader

/-- The characters, besides digits, that may go on a set of dice. -/
def diceStops : List Char := innerStops ++ modifierStarts

/-! ## Sides -/

theorem sound_sides : Sound Sides.reader Sides.Derives := by
  refine (sound_exactly_pure .fate).orElse <|
    (sound_exactly_pure .percentile).orElse ?_
  intro s sides rest h
  obtain ⟨n, mid, hNumeral, h⟩ := bind_eq_some_iff.1 h
  obtain ⟨p, hs, hp⟩ := sound_numeral s n mid hNumeral
  rw [ofOption_apply, Option.map_eq_some_iff] at h
  obtain ⟨sides', h, hEq⟩ := h
  cases hEq
  obtain ⟨k, hk, h⟩ := Option.bind_eq_some_iff.1 h
  split at h
  · cases h
  · next hZero =>
    cases h
    have hToNat : k.toNat = n := narrowCount?_eq_some_iff.1 hk
    have hPos : k.toNat ≠ 0 := fun h0 => hZero (UInt16.toNat_inj.1 h0)
    exact ⟨p, hs, .numbered (hToNat ▸ hp) (by omega)⟩

theorem complete_sides (stops : List Char) :
    Complete Sides.reader Sides.Derives stops := by
  intro p sides rest hp hRest
  cases hp with
  | fate => rfl
  | percentile => rfl
  | @numbered s n hNumeral hPos =>
      obtain ⟨c, t, rfl, hc⟩ := hNumeral.exists_head
      have hFate : ¬ 'f' = c := by
        rintro rfl
        exact absurd hc (by decide)
      have hPercent : ¬ '%' = c := by
        rintro rfl
        exact absurd hc (by decide)
      have hRead := complete_numeral stops (c :: t) n.toNat rest hNumeral hRest
      have hNarrow : narrowCount? n.toNat = some n :=
        narrowCount?_eq_some_iff.2 rfl
      have hn : n ≠ 0 := by
        rintro rfl
        exact absurd hPos (by decide)
      rw [List.cons_append] at hRead ⊢
      simp [Sides.reader, orElse_apply, seqRight_apply, bind_apply, exactly,
        List.isPrefixOf?, ofOption_apply, hFate, hPercent, hRead, hNarrow, hn]

/-! ## Sets of dice -/

theorem isWellFormed_iff {d : Dice} :
    d.isWellFormed = true ↔
      1 ≤ d.count.toNat ∧ ∀ m ∈ d.modifiers, m.SelectsWithin d.count := by
  have hCount : ∀ n : UInt16, n ≠ 0 ↔ 1 ≤ n.toNat := by
    intro n
    rw [Ne, ← UInt16.toNat_inj]
    have hZero : (0 : UInt16).toNat = 0 := rfl
    omega
  simp only [Dice.isWellFormed, Bool.and_eq_true, bne_iff_ne, hCount,
    List.all_eq_true]
  refine and_congr_right fun _ => forall_congr' fun m => imp_congr_right fun _ => ?_
  cases m with
  | keep | drop =>
      simp [Modifier.selectionCount?, Modifier.SelectsWithin, hCount,
        UInt16.le_iff_toNat_le]
  | atLeast | atMost | explode | reroll =>
      simp [Modifier.selectionCount?, Modifier.SelectsWithin]

theorem sound_dice : Sound Dice.reader Dice.Derives := by
  intro s d rest h
  obtain ⟨count, mid, hCount, h⟩ := bind_eq_some_iff.1 h
  obtain ⟨u, mid', hLetter, h⟩ := bind_eq_some_iff.1 h
  obtain ⟨sides, mid'', hSides, h⟩ := bind_eq_some_iff.1 h
  obtain ⟨ms, mid''', hModifiers, h⟩ := bind_eq_some_iff.1 h
  obtain ⟨n, last, hNarrow, h⟩ := bind_eq_some_iff.1 h
  rw [ofOption_apply, Option.map_eq_some_iff] at hNarrow
  obtain ⟨k, hk, hEq⟩ := hNarrow
  cases hEq
  rw [ofOption_apply, Option.map_eq_some_iff] at h
  obtain ⟨d', hFilter, hEq⟩ := h
  cases hEq
  rw [Option.filter_eq_some_iff, Option.some.injEq] at hFilter
  obtain ⟨rfl, hWellFormed⟩ := hFilter
  obtain ⟨hPos, hSelect⟩ := isWellFormed_iff.1 hWellFormed
  obtain ⟨p, rfl, hp⟩ := sound_numeral.optional s count mid hCount
  obtain ⟨q, rfl, hq⟩ := sound_sides mid' sides mid'' hSides
  obtain ⟨r, rfl, hr⟩ := sound_modifiers mid'' ms rest hModifiers
  rw [exactly_eq_some_iff.1 hLetter]
  refine ⟨p ++ 'd' :: (q ++ r), ?_, .mk ⟨count, hp, ?_⟩ hPos hq hr hSelect⟩
  · simp
  · exact narrowCount?_eq_some_iff.1 hk

theorem complete_dice : Complete Dice.reader Dice.Derives diceStops := by
  intro p d rest hp hRest
  cases hp with
  | @mk s t u count sides ms hCount hPos hSides hModifiers hSelect =>
      obtain ⟨n, hn, hEq⟩ := hCount
      have hRead := complete_modifiers u ms rest hModifiers hRest
      have hAfterSides : Clear innerStops (u ++ rest) :=
        hModifiers.clear hRest
      have hReadSides := complete_sides innerStops t sides (u ++ rest) hSides
        hAfterSides
      have hReadCount := (complete_numeral []).optional
        (fun rest hRest => numeral_eq_none fun c hc => (hRest c hc).1)
        s n ('d' :: (t ++ (u ++ rest))) hn
        (clear_cons (by decide) List.not_mem_nil)
      have hNarrow : narrowCount? (n.getD 1) = some count :=
        narrowCount?_eq_some_iff.2 hEq
      have hWellFormed : (Dice.mk count sides ms).isWellFormed = true :=
        isWellFormed_iff.2 ⟨hPos, hSelect⟩
      rw [show s ++ 'd' :: (t ++ u) ++ rest =
        s ++ 'd' :: (t ++ (u ++ rest)) by simp]
      refine bind_eq_some_iff.2 ⟨n, _, hReadCount, ?_⟩
      refine bind_eq_some_iff.2 ⟨(), _, exactly_append "d" _, ?_⟩
      refine bind_eq_some_iff.2 ⟨sides, _, hReadSides, ?_⟩
      refine bind_eq_some_iff.2 ⟨ms, _, hRead, ?_⟩
      refine bind_eq_some_iff.2 ⟨count, rest, ?_, ?_⟩
      · rw [ofOption_apply, hNarrow, Option.map_some]
      · rw [ofOption_apply, Option.filter_some_pos hWellFormed,
          Option.map_some]

/-- Without the letter `d` behind an optional numeral there are no dice. -/
theorem Dice.Derives.exists_split {s : List Char} {d : Dice}
    (h : d.Derives s) : ∃ p q, s = p ++ 'd' :: q ∧
      ∀ c ∈ p, c.isDigit = true := by
  cases h with
  | @mk s t u count sides ms hCount _ _ _ _ =>
      obtain ⟨n, hn, -⟩ := hCount
      refine ⟨s, t ++ u, rfl, ?_⟩
      cases hn with
      | piece hNumeral => exact hNumeral.isDigit
      | nothing => simp

theorem readAll?_dice_eq_some_iff {s : List Char} {d : Dice} :
    readAll? Dice.reader s = some d ↔ d.Derives s := by
  rw [readAll?_eq_some_iff]
  constructor
  · intro h
    obtain ⟨p, rfl, hp⟩ := sound_dice s d [] h
    rwa [List.append_nil]
  · intro h
    have hRead := complete_dice s d [] h (clear_nil _)
    rwa [List.append_nil] at hRead

theorem Dice.read?_eq_some_iff {text : String} {d : Dice} :
    Dice.read? text = some d ↔ d.Derives (lowercase text.toList) :=
  readAll?_dice_eq_some_iff

end DiceFormula
