import DiceFormula.Dice.Reading
import DiceFormula.Proofs.Notation.Grammar

/-!
# Reading numbers

The readers of numerals, values and counts take exactly what the grammar
derives, wherever no further digit follows.

## Main results

* `isNumeral_toDigits` — the decimal digits of a number are its numeral.
* `sound_numeral`, `complete_numeral` — numerals are read as the grammar
  derives them, and so are values and counts.
-/

namespace DiceFormula

open Text Text.Reader

/-! ## Numerals -/

theorem IsNumeral.isDigit {s : List Char} {n : Nat} (h : IsNumeral s n) :
    ∀ c ∈ s, c.isDigit = true := by
  cases h with
  | zero => decide
  | digits _ hDigits => exact hDigits

theorem IsNumeral.ne_nil {s : List Char} {n : Nat} (h : IsNumeral s n) :
    s ≠ [] := by
  cases h <;> simp

theorem IsNumeral.exists_head {s : List Char} {n : Nat} (h : IsNumeral s n) :
    ∃ c t, s = c :: t ∧ c.isDigit = true := by
  obtain ⟨c, t, rfl⟩ := List.exists_cons_of_ne_nil h.ne_nil
  exact ⟨c, t, rfl, h.isDigit c List.mem_cons_self⟩

theorem isNumeral_toDigits (n : Nat) : IsNumeral (Nat.toDigits 10 n) n := by
  rcases Nat.eq_zero_or_pos n with rfl | hn
  · exact .zero
  · have hHead := head?_toDigits_ne_zero hn
    have hDigits : ∀ d ∈ Nat.toDigits 10 n, d.isDigit = true := fun d hd =>
      Nat.isDigit_of_mem_toDigits (by decide) (by decide) hd
    have hValue : Nat.ofDigitChars 10 (Nat.toDigits 10 n) 0 = n :=
      Nat.ofDigitChars_ten_toDigits
    cases hs : Nat.toDigits 10 n with
    | nil => exact absurd hs Nat.toDigits_ne_nil
    | cons c s =>
        rw [hs] at hHead hDigits hValue
        have hNumeral := IsNumeral.digits (by simpa using hHead) hDigits
        rwa [hValue] at hNumeral

theorem sound_numeral : Sound numeral IsNumeral := by
  intro s n rest h
  unfold numeral at h
  split at h
  · cases h
    exact ⟨['0'], rfl, .zero⟩
  · next hZero =>
    split at h
    · cases h
    · next digits hTake =>
      cases h
      cases hDigits : s.takeWhile Char.isDigit with
      | nil => exact absurd hDigits hTake
      | cons c t =>
          have hSplit := s.takeWhile_append_dropWhile (p := Char.isDigit)
          rw [hDigits] at hSplit
          refine ⟨c :: t, hSplit.symm, .digits ?_ ?_⟩
          · rintro rfl
            exact hZero _ hSplit.symm
          · intro d hd
            rw [← hDigits] at hd
            exact List.mem_takeWhile_imp hd

theorem numeral_eq_none {rest : List Char}
    (h : ∀ c ∈ rest.head?, c.isDigit = false) : numeral rest = none := by
  cases rest with
  | nil => rfl
  | cons c rest =>
      have hc : c.isDigit = false := h c rfl
      have hZero : c ≠ '0' := by
        rintro rfl
        exact absurd hc (by decide)
      unfold numeral
      split
      · next hEq =>
        cases hEq
        exact absurd rfl hZero
      · simp [hc]

theorem complete_numeral (stops : List Char) :
    Complete numeral IsNumeral stops := by
  intro p n rest hp hRest
  have hEnd : ∀ c, rest.head? = some c → c.isDigit = false :=
    fun c hc => (hRest c hc).1
  cases hp with
  | zero => rfl
  | @digits c s hFirst hDigits =>
      have hTake : ((c :: s) ++ rest).takeWhile Char.isDigit = c :: s := by
        rw [List.takeWhile_append_of_pos hDigits]
        cases rest with
        | nil => simp
        | cons d rest => simp [hEnd d rfl]
      have hDrop : ((c :: s) ++ rest).dropWhile Char.isDigit = rest := by
        rw [List.dropWhile_append_of_pos hDigits]
        cases rest with
        | nil => rfl
        | cons d rest => simp [hEnd d rfl]
      unfold numeral
      split
      · next hEq =>
        cases hEq
        exact absurd rfl hFirst
      · rw [hTake, hDrop]

/-! ## Values -/

theorem sound_value : Sound Value.reader Value.Derives := by
  intro s v rest h
  obtain ⟨n, mid, hNumeral, hNarrow⟩ := bind_eq_some_iff.1 h
  obtain ⟨p, hs, hp⟩ := sound_numeral s n mid hNumeral
  rw [ofOption_apply, Option.map_eq_some_iff] at hNarrow
  obtain ⟨w, hw, hEq⟩ := hNarrow
  cases hEq
  exact ⟨p, hs, n, hp, Value.narrow?_eq_some_iff.1 hw⟩

theorem complete_value (stops : List Char) :
    Complete Value.reader Value.Derives stops := by
  rintro p v rest ⟨n, hp, hv⟩ hRest
  refine bind_eq_some_iff.2 ⟨n, rest, complete_numeral stops p n rest hp hRest, ?_⟩
  rw [ofOption_apply, Value.narrow?_eq_some_iff.2 hv, Option.map_some]

theorem Value.Derives.exists_head {s : List Char} {v : Value}
    (h : Value.Derives s v) : ∃ c t, s = c :: t ∧ c.isDigit = true := by
  obtain ⟨n, hNumeral, -⟩ := h
  exact hNumeral.exists_head

theorem value_reader_eq_none {rest : List Char}
    (h : ∀ c ∈ rest.head?, c.isDigit = false) : Value.reader rest = none := by
  show (numeral >>= _) rest = none
  rw [bind_apply, numeral_eq_none h, Option.bind_none]

/-! ## Counts -/

theorem narrowCount?_eq_some_iff {n : Nat} {count : UInt16} :
    narrowCount? n = some count ↔ count.toNat = n := by
  unfold narrowCount?
  constructor
  · intro h
    split at h
    · next hn =>
      cases h
      exact UInt16.toNat_ofNat_of_lt' hn
    · cases h
  · rintro rfl
    rw [if_pos count.toNat_lt]
    simp

theorem sound_count : Sound countReader CountDerives := by
  intro s count rest h
  obtain ⟨n, mid, hNumeral, hNarrow⟩ := bind_eq_some_iff.1 h
  obtain ⟨p, hs, hp⟩ := sound_numeral.optional s n mid hNumeral
  rw [ofOption_apply, Option.map_eq_some_iff] at hNarrow
  obtain ⟨k, hk, hEq⟩ := hNarrow
  cases hEq
  exact ⟨p, hs, n, hp, narrowCount?_eq_some_iff.1 hk⟩

theorem complete_count (stops : List Char) :
    Complete countReader CountDerives stops := by
  rintro p count rest ⟨n, hp, hCount⟩ hRest
  have hNumeral := (complete_numeral stops).optional
    (fun rest hRest => numeral_eq_none fun c hc => (hRest c hc).1)
    p n rest hp hRest
  refine bind_eq_some_iff.2 ⟨n, rest, hNumeral, ?_⟩
  rw [ofOption_apply, narrowCount?_eq_some_iff.2 hCount, Option.map_some]

/-- A count is written with digits, or not at all. -/
theorem CountDerives.clear {s rest : List Char} {count : UInt16}
    {c : Char} (h : CountDerives s count) (hc : c.isDigit = false)
    (hRest : rest.head? ≠ some c) : (s ++ rest).head? ≠ some c := by
  obtain ⟨n, hn, -⟩ := h
  cases hn with
  | nothing => exact hRest
  | piece hNumeral =>
      obtain ⟨d, t, rfl, hd⟩ := hNumeral.exists_head
      intro hHead
      cases hHead
      rw [hd] at hc
      cases hc

end DiceFormula
