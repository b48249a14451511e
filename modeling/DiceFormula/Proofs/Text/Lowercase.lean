import DiceFormula.Text.Blank
import DiceFormula.Text.Lowercase

/-!
# Lowercase texts

What the case table is good for, read off from it once and then used without
looking into it. Every run of the table leads to characters that no run covers
and that are no blanks; below the Latin letters with accents, only the letters
`A` to `Z` are covered. The two letters with rules of their own lead to four
characters for which the same holds.

## Main results

* `lowercase_lowercase` — a lowercase form is its own lowercase form.
* `mem_lowercaseBetween` — a character that lowercasing brings in is neither a
  blank nor a digit or a quote.
* `lowercase_eq_map` — without the two special letters, a text is lowercased
  character by character.
* `lowercaseAfter_append` — a character that is not transparent keeps what stands in
  front of it from having any influence.
-/

namespace DiceFormula.Text

open CaseTable

/-! ## Runs -/

namespace CaseTable

/-- The code point that the run puts in the place of `n`. -/
def Shift.target (s : Shift) (n : Nat) : Nat := (n + s.offset).toNat

/-- Whether the forms of a run are characters behind the digits and quotes,
none of them a blank or the capital dotted I. -/
def Shift.isProper (s : Shift) : Bool :=
  (s.stride == 1 || s.stride == 2) && 97 ≤ s.first + s.offset &&
    (s.target s.last < 0xD800 || 0xDFFF < s.target s.first) &&
    s.target s.last < 0x110000 &&
    (s.target s.last < 0x0130 || 0x0130 < s.target s.first) &&
    blankIntervals.all fun b =>
      s.target s.last < b.1 || b.2 < s.target s.first

/-- Whether no form of the run is covered by another run: it lies before or
behind it, or the other run passes over it. -/
def Shift.avoids (s t : Shift) : Bool :=
  Nat.blt (s.target s.last) t.first || Nat.blt t.last (s.target s.first) ||
    (t.stride == 2 && (s.stride == 2 || s.first == s.last) &&
      (s.target s.first + t.first) % 2 == 1)

theorem isProper_of_mem : ∀ s ∈ lowercaseShifts, s.isProper = true := by
  decide +kernel

theorem avoids_of_mem :
    ∀ s ∈ lowercaseShifts, ∀ t ∈ lowercaseShifts, s.avoids t = true := by
  have hAll : (lowercaseShifts.all fun s =>
      lowercaseShifts.all s.avoids) = true := by
    decide +kernel
  simpa only [List.all_eq_true] using hAll

variable {s t : Shift} {n : Nat}

theorem Shift.target_bounds (h : s.covers n = true) :
    s.target s.first ≤ s.target n ∧ s.target n ≤ s.target s.last := by
  simp only [covers, Bool.and_eq_true, decide_eq_true_eq] at h
  simp only [target]
  omega

/-- A form of a proper run is behind the digits and quotes. -/
theorem Shift.le_target (hs : s.isProper = true) (h : s.covers n = true) :
    97 ≤ s.target n := by
  simp only [isProper, Bool.and_eq_true, decide_eq_true_eq] at hs
  simp only [covers, Bool.and_eq_true, decide_eq_true_eq] at h
  simp only [target]
  omega

theorem Shift.isValidChar_target (hs : s.isProper = true)
    (h : s.covers n = true) : (s.target n).isValidChar := by
  obtain ⟨hFirst, hLast⟩ := target_bounds h
  simp only [isProper, Bool.and_eq_true, Bool.or_eq_true,
    decide_eq_true_eq] at hs
  simp only [Nat.isValidChar]
  omega

theorem Shift.not_covers_target (hs : s.isProper = true)
    (hApart : s.avoids t = true) (h : s.covers n = true) :
    t.covers (s.target n) = false := by
  obtain ⟨hFirst, hLast⟩ := target_bounds h
  have hStride : s.stride = 1 ∨ s.stride = 2 := by
    simp only [isProper, Bool.and_eq_true, Bool.or_eq_true, beq_iff_eq] at hs
    exact hs.1.1.1.1.1
  have hPos : 97 ≤ s.first + s.offset := by
    simp only [isProper, Bool.and_eq_true, decide_eq_true_eq] at hs
    exact hs.1.1.1.1.2
  rw [Bool.eq_false_iff]
  intro hCovers
  simp only [covers, Bool.and_eq_true, decide_eq_true_eq,
    beq_iff_eq] at hCovers
  simp only [covers, Bool.and_eq_true, decide_eq_true_eq, beq_iff_eq] at h
  simp only [avoids, Bool.or_eq_true, Bool.and_eq_true, beq_iff_eq,
    Nat.blt_eq] at hApart
  rcases hApart with (hBefore | hBehind) | ⟨⟨ht, hs⟩, hParity⟩
  · omega
  · omega
  · rw [ht] at hCovers
    simp only [target] at hCovers hParity
    rcases hs with hs | hs
    · rw [hs] at h
      omega
    · omega

end CaseTable

/-! ## Single characters -/

theorem lowercaseChar_cases (c : Char) :
    lowercaseChar c = c ∨ ∃ s ∈ lowercaseShifts, s.covers c.toNat = true ∧
      (lowercaseChar c).toNat = s.target c.toNat := by
  unfold lowercaseChar
  cases hFind : lowercaseShifts.find? (·.covers c.toNat) with
  | none => exact .inl rfl
  | some s =>
      have hMem := List.mem_of_find?_eq_some hFind
      have hCovers : s.covers c.toNat = true := by
        simpa using List.find?_some hFind
      refine .inr ⟨s, hMem, hCovers, ?_⟩
      have hValid := s.isValidChar_target (isProper_of_mem s hMem) hCovers
      show (Char.ofNat (s.target c.toNat)).toNat = _
      rw [Char.ofNat, dif_pos hValid]
      rfl

/-- The character is its own lowercase form, wherever it stands. -/
def IsLowercaseChar (c : Char) : Prop :=
  c ≠ '\u03A3' ∧ c ≠ '\u0130' ∧ lowercaseChar c = c

instance (c : Char) : Decidable (IsLowercaseChar c) :=
  inferInstanceAs (Decidable (_ ∧ _))

set_option maxRecDepth 4000 in
theorem isLowercaseChar_of_uncovered {c : Char} (hDotted : c ≠ '\u0130')
    (h : ∀ t ∈ lowercaseShifts, t.covers c.toNat = false) :
    IsLowercaseChar c := by
  refine ⟨?_, hDotted, ?_⟩
  · rintro rfl
    have hSigma : ∃ t ∈ lowercaseShifts, t.covers 0x03A3 = true := by
      decide
    obtain ⟨t, ht, hCovers⟩ := hSigma
    have hNot : t.covers 0x03A3 = false := h t ht
    rw [hCovers] at hNot
    cases hNot
  · rcases lowercaseChar_cases c with hSelf | ⟨s, hs, hCovers, -⟩
    · exact hSelf
    · rw [h s hs] at hCovers
      cases hCovers

theorem isLowercaseChar_lowercaseChar {c : Char} (hSigma : c ≠ '\u03A3')
    (hDotted : c ≠ '\u0130') : IsLowercaseChar (lowercaseChar c) := by
  rcases lowercaseChar_cases c with hSelf | ⟨s, hs, hCovers, hTarget⟩
  · exact ⟨by rwa [hSelf], by rwa [hSelf], by rw [hSelf, hSelf]⟩
  · have hProper := isProper_of_mem s hs
    refine isLowercaseChar_of_uncovered ?_ ?_
    · intro hEq
      have hTarget' : s.target c.toNat = 0x0130 := by
        rw [← hTarget, hEq]
        rfl
      obtain ⟨hFirst, hLast⟩ := s.target_bounds hCovers
      simp only [Shift.isProper, Bool.and_eq_true, Bool.or_eq_true,
        decide_eq_true_eq] at hProper
      omega
    · intro t ht
      rw [hTarget]
      exact s.not_covers_target hProper (avoids_of_mem s hs t ht) hCovers

set_option maxRecDepth 4000 in
/-- Below the Latin letters with accents only the capitals of the English
alphabet have lowercase forms. -/
theorem isLowercaseChar_of_lt {c : Char} (h : c.toNat < 0xC0)
    (hCapital : ¬ (65 ≤ c.toNat ∧ c.toNat ≤ 90)) : IsLowercaseChar c := by
  have hTable : ∀ t ∈ lowercaseShifts,
      (t.first = 65 ∧ t.last = 90) ∨ 0xC0 ≤ t.first := by
    decide
  refine isLowercaseChar_of_uncovered ?_ ?_
  · rintro rfl
    exact absurd h (by decide)
  · intro t ht
    rw [Bool.eq_false_iff]
    intro hCovers
    simp only [Shift.covers, Bool.and_eq_true, decide_eq_true_eq] at hCovers
    rcases hTable t ht with hFirst | hBehind
    · omega
    · omega

theorem isLowercaseChar_of_isDigit {c : Char} (h : c.isDigit = true) :
    IsLowercaseChar c := by
  have hRange : 48 ≤ c.toNat ∧ c.toNat ≤ 57 := Char.isDigit_iff_toNat.1 h
  exact isLowercaseChar_of_lt (by omega) (by omega)

/-! ## Texts -/

theorem lowercaseBetween_eq_self {c : Char} (h : IsLowercaseChar c)
    (before after : List Char) : lowercaseBetween before c after = [c] := by
  obtain ⟨hSigma, hDotted, hSelf⟩ := h
  rw [lowercaseBetween, if_neg hSigma, if_neg hDotted, hSelf]

theorem lowercaseBetween_ne_nil (before : List Char) (c : Char)
    (after : List Char) : lowercaseBetween before c after ≠ [] := by
  unfold lowercaseBetween
  split
  · split <;> simp
  · split <;> simp

set_option maxRecDepth 4000 in
theorem isLowercaseChar_of_mem_lowercaseBetween {before after : List Char}
    {c d : Char} (h : d ∈ lowercaseBetween before c after) :
    IsLowercaseChar d := by
  have hForms : ∀ d ∈ ['\u03C2', '\u03C3', 'i', '\u0307'],
      IsLowercaseChar d := by
    decide
  unfold lowercaseBetween at h
  split at h
  · split at h <;> exact hForms d (by simp_all)
  · next hSigma =>
    split at h
    · exact hForms d (by simp_all)
    · next hDotted =>
      rw [List.mem_singleton.1 h]
      exact isLowercaseChar_lowercaseChar hSigma hDotted

/-- Lowercasing brings in no blanks, and nothing before the letter `a`. -/
theorem mem_lowercaseBetween {before after : List Char} {c d : Char}
    (h : d ∈ lowercaseBetween before c after) :
    d = c ∨ (isBlank d = false ∧ 97 ≤ d.toNat) := by
  have hForms : ∀ d ∈ ['\u03C2', '\u03C3', 'i', '\u0307'],
      isBlank d = false ∧ 97 ≤ d.toNat := by
    decide
  unfold lowercaseBetween at h
  split at h
  · split at h <;> exact .inr (hForms d (by simp_all))
  · split at h
    · exact .inr (hForms d (by simp_all))
    · rw [List.mem_singleton.1 h]
      rcases lowercaseChar_cases c with hSelf | ⟨s, hs, hCovers, hTarget⟩
      · exact .inl hSelf
      · have hProper := isProper_of_mem s hs
        refine .inr ⟨?_, by rw [hTarget]; exact s.le_target hProper hCovers⟩
        obtain ⟨hFirst, hLast⟩ := s.target_bounds hCovers
        simp only [Shift.isProper, Bool.and_eq_true, Bool.or_eq_true,
          List.all_eq_true, decide_eq_true_eq] at hProper
        rw [Bool.eq_false_iff]
        intro hBlank
        simp only [isBlank, List.any_eq_true, Bool.and_eq_true,
          decide_eq_true_eq, hTarget] at hBlank
        obtain ⟨b, hb, hInside⟩ := hBlank
        have hOutside := hProper.2 b hb
        omega

theorem lowercaseAfter_eq_self {s : List Char}
    (h : ∀ c ∈ s, IsLowercaseChar c) (before : List Char) :
    lowercaseAfter before s = s := by
  induction s generalizing before with
  | nil => rfl
  | cons c s ih =>
      rw [lowercaseAfter, lowercaseBetween_eq_self (h c List.mem_cons_self),
        ih fun d hd => h d (List.mem_cons_of_mem c hd)]
      rfl

theorem mem_lowercaseAfter {s before : List Char} {d : Char}
    (h : d ∈ lowercaseAfter before s) :
    ∃ c ∈ s, ∃ before after, d ∈ lowercaseBetween before c after := by
  induction s generalizing before with
  | nil => cases h
  | cons c s ih =>
      rw [lowercaseAfter, List.mem_append] at h
      rcases h with h | h
      · exact ⟨c, List.mem_cons_self, before, s, h⟩
      · obtain ⟨c', hc', hBetween⟩ := ih h
        exact ⟨c', List.mem_cons_of_mem c hc', hBetween⟩

theorem isLowercaseChar_of_mem_lowercase {s : List Char} {c : Char}
    (h : c ∈ lowercase s) : IsLowercaseChar c := by
  obtain ⟨_, _, _, _, hBetween⟩ := mem_lowercaseAfter h
  exact isLowercaseChar_of_mem_lowercaseBetween hBetween

/-- A text of lowercase characters is its own lowercase form. -/
theorem lowercase_eq_self {s : List Char} (h : ∀ c ∈ s, IsLowercaseChar c) :
    lowercase s = s :=
  lowercaseAfter_eq_self h []

theorem lowercase_lowercase (s : List Char) :
    lowercase (lowercase s) = lowercase s :=
  lowercase_eq_self fun _ => isLowercaseChar_of_mem_lowercase

theorem lowercase_eq_map {s : List Char}
    (h : ∀ c ∈ s, c ≠ '\u03A3' ∧ c ≠ '\u0130') :
    lowercase s = s.map lowercaseChar := by
  have hAfter : ∀ before, lowercaseAfter before s = s.map lowercaseChar := by
    induction s with
    | nil => exact fun _ => rfl
    | cons c s ih =>
        intro before
        obtain ⟨hSigma, hDotted⟩ := h c List.mem_cons_self
        rw [lowercaseAfter, lowercaseBetween, if_neg hSigma, if_neg hDotted,
          ih fun d hd => h d (List.mem_cons_of_mem c hd)]
        rfl
  exact hAfter []

/-! ## Digits -/

theorem all_isDigit_lowercaseBetween (before : List Char) (c : Char)
    (after : List Char) :
    (lowercaseBetween before c after).all Char.isDigit = c.isDigit := by
  cases hDigit : c.isDigit with
  | true =>
      rw [lowercaseBetween_eq_self (isLowercaseChar_of_isDigit hDigit), List.all_cons,
        hDigit]
      rfl
  | false =>
      obtain ⟨d, rest, hForm⟩ :=
        List.exists_cons_of_ne_nil (lowercaseBetween_ne_nil before c after)
      have hMem : d ∈ lowercaseBetween before c after := by
        rw [hForm]
        exact List.mem_cons_self
      have hNot : d.isDigit = false := by
        rcases mem_lowercaseBetween hMem with rfl | ⟨-, hLetter⟩
        · exact hDigit
        · rw [Bool.eq_false_iff]
          intro hTrue
          have hRange : 48 ≤ d.toNat ∧ d.toNat ≤ 57 := Char.isDigit_iff_toNat.1 hTrue
          omega
      rw [hForm, List.all_cons, hNot]
      rfl

/-- A text is all digits just when its lowercase form is. -/
theorem all_isDigit_lowercase (s : List Char) :
    (lowercase s).all Char.isDigit = s.all Char.isDigit := by
  have hAfter : ∀ before,
      (lowercaseAfter before s).all Char.isDigit = s.all Char.isDigit := by
    induction s with
    | nil => exact fun _ => rfl
    | cons c s ih =>
        intro before
        rw [lowercaseAfter, List.all_append, all_isDigit_lowercaseBetween, ih,
          List.all_cons]
  exact hAfter []

/-! ## What has no influence -/

/-- The nearest character that is not transparent decides, and nothing beyond
it. -/
theorem startsCased_append {c : Char}
    (hc : inIntervals transparentIntervals c.toNat = false)
    (near far far' : List Char) :
    startsCased (near ++ c :: far) = startsCased (near ++ c :: far') := by
  induction near with
  | nil => simp [startsCased, hc]
  | cons d near ih =>
      cases hd : inIntervals transparentIntervals d.toNat with
      | false => simp [startsCased, hd]
      | true => simpa [startsCased, hd] using ih

/-- What stands in front of a character that is not transparent does not change
how the text behind that character is lowercased. -/
theorem lowercaseAfter_append {c : Char}
    (hc : inIntervals transparentIntervals c.toNat = false)
    (near far far' s : List Char) :
    lowercaseAfter (near ++ c :: far) s = lowercaseAfter (near ++ c :: far') s := by
  induction s generalizing near with
  | nil => rfl
  | cons d s ih =>
      have hMore := ih (d :: near)
      rw [List.cons_append, List.cons_append] at hMore
      rw [lowercaseAfter, lowercaseAfter, hMore, lowercaseBetween, lowercaseBetween,
        startsCased_append hc near far far']

end DiceFormula.Text
