import DiceFormula.Formula.Normalization
import DiceFormula.Proofs.Text.Lowercase
import Mathlib.Data.List.DropRight

/-!
# Normal forms

What a formula looks like once it has been brought into its normal form, and
what happens to it when that is done again. Nothing in a normal form gives a
further round anything to do; but completing a bare number or a die without a
count makes the text longer, and a normal form with more characters than a
formula may have is refused.

## Main results

* `isNormal_of_normalize` — what normalization answers is a normal form.
* `normalize_trimmed` — the blanks around a formula do not matter.
* `normalize_of_isNormal` — a normal form is its own normal form, unless it is
  too long.
* `normalize_to_normal_form` — when a text is refused, and all of what is true of
  the normal forms of the others.
-/

namespace DiceFormula.Text

/-! ## Trimming -/

theorem trim_eq_rdropWhile (s : List Char) :
    trim s = (s.dropWhile isBlank).rdropWhile isBlank := rfl

theorem mem_of_mem_trim {s : List Char} {c : Char} (h : c ∈ trim s) : c ∈ s :=
  (List.dropWhile_sublist _).subset ((List.rdropWhile_prefix _ _).subset h)

theorem head?_trim {s : List Char} :
    ∀ c ∈ (trim s).head?, isBlank c = false := by
  intro c hc
  rw [trim_eq_rdropWhile] at hc
  obtain ⟨t, ht⟩ := List.rdropWhile_prefix isBlank (s.dropWhile isBlank)
  have hHead : c ∈ (s.dropWhile isBlank).head? := by
    rw [← ht, List.head?_append]
    simp [Option.mem_def.1 hc]
  have hNot := List.head?_dropWhile_not isBlank s
  rw [Option.mem_def.1 hHead] at hNot
  exact Bool.eq_false_iff.2 (by simpa using hNot)

theorem getLast?_trim {s : List Char} :
    ∀ c ∈ (trim s).getLast?, isBlank c = false := by
  intro c hc
  rw [trim_eq_rdropWhile] at hc
  obtain ⟨hNil, hLast⟩ := List.mem_getLast?_eq_getLast hc
  have hNot := List.rdropWhile_last_not isBlank (s.dropWhile isBlank) hNil
  rw [← hLast] at hNot
  exact Bool.eq_false_iff.2 hNot

theorem trim_trim (s : List Char) : trim (trim s) = trim s :=
  trim_eq_self head?_trim getLast?_trim

/-- Blanks in front of a text are trimmed away. -/
theorem trim_append_left {blanks : List Char}
    (h : ∀ c ∈ blanks, isBlank c = true) (s : List Char) :
    trim (blanks ++ s) = trim s := by
  rw [trim, trim, List.dropWhile_append_of_pos h]

/-- Blanks behind a text are trimmed away. -/
theorem trim_append_right {blanks : List Char}
    (h : ∀ c ∈ blanks, isBlank c = true) (s : List Char) :
    trim (s ++ blanks) = trim s := by
  rw [trim, trim, List.dropWhile_append]
  split
  · next hEmpty =>
    rw [List.isEmpty_iff.1 hEmpty, List.dropWhile_eq_nil_iff.2 h]
  · rw [List.reverse_append, List.dropWhile_append_of_pos]
    intro c hc
    exact h c (List.mem_reverse.1 hc)

/-- A text is made of what is left of it when it is trimmed and of the blanks
around that. -/
theorem exists_blanks_trim (s : List Char) : ∃ before after,
    s = before ++ trim s ++ after ∧ (∀ c ∈ before, isBlank c = true) ∧
      ∀ c ∈ after, isBlank c = true := by
  refine ⟨s.takeWhile isBlank, (s.dropWhile isBlank).rtakeWhile isBlank, ?_,
    fun _ => List.mem_takeWhile_imp, fun _ => List.mem_rtakeWhile_imp⟩
  rw [trim_eq_rdropWhile, List.append_assoc, List.rdropWhile_append_rtakeWhile,
    List.takeWhile_append_dropWhile]

/-- It makes no difference to trim a text before characters are taken out of it
as well as after that. -/
theorem trim_filter_trim (keep : Char → Bool) (s : List Char) :
    trim ((trim s).filter keep) = trim (s.filter keep) := by
  obtain ⟨before, after, hText, hBefore, hAfter⟩ := exists_blanks_trim s
  have hBefore' : ∀ c ∈ before.filter keep, isBlank c = true :=
    fun c hc => hBefore c (List.mem_of_mem_filter hc)
  have hAfter' : ∀ c ∈ after.filter keep, isBlank c = true :=
    fun c hc => hAfter c (List.mem_of_mem_filter hc)
  calc trim ((trim s).filter keep)
      = trim (before.filter keep ++ (trim s).filter keep ++ after.filter keep) := by
        rw [trim_append_right hAfter', trim_append_left hBefore']
    _ = trim (s.filter keep) := by
        rw [← List.filter_append, ← List.filter_append, ← hText]

/-! ## The ends of lowercase texts -/

theorem lowercaseAfter_ne_nil {s : List Char} (h : s ≠ [])
    (before : List Char) : lowercaseAfter before s ≠ [] := by
  cases s with
  | nil => exact absurd rfl h
  | cons c s =>
      rw [lowercaseAfter]
      exact List.append_ne_nil_of_left_ne_nil (lowercaseBetween_ne_nil _ c s) _

theorem head?_lowercase {s : List Char}
    (h : ∀ c ∈ s.head?, isBlank c = false) :
    ∀ c ∈ (lowercase s).head?, isBlank c = false := by
  cases s with
  | nil => exact fun _ hc => absurd hc (by simp [lowercase, lowercaseAfter])
  | cons c s =>
      intro d hd
      have hMem : d ∈ lowercaseBetween [] c s := by
        rw [lowercase, lowercaseAfter,
          List.head?_append_of_ne_nil _ (lowercaseBetween_ne_nil [] c s)] at hd
        exact List.mem_of_mem_head? hd
      rcases mem_lowercaseBetween hMem with rfl | ⟨hBlank, -⟩
      · exact h d rfl
      · exact hBlank

theorem getLast?_lowercase {s : List Char}
    (h : ∀ c ∈ s.getLast?, isBlank c = false) :
    ∀ c ∈ (lowercase s).getLast?, isBlank c = false := by
  have hAfter : ∀ before, ∀ c ∈ (lowercaseAfter before s).getLast?,
      isBlank c = false := by
    induction s with
    | nil => exact fun before _ hc => absurd hc (by simp [lowercaseAfter])
    | cons c s ih =>
        intro before d hd
        rw [lowercaseAfter] at hd
        cases s with
        | nil =>
            rw [lowercaseAfter, List.append_nil] at hd
            have hMem := List.mem_of_mem_getLast? hd
            rcases mem_lowercaseBetween hMem with rfl | ⟨hBlank, -⟩
            · exact h d rfl
            · exact hBlank
        | cons c' s =>
            have hMore := lowercaseAfter_ne_nil (List.cons_ne_nil c' s)
              (c :: before)
            rw [List.getLast?_append_of_ne_nil _ hMore] at hd
            exact ih (fun e he => h e he) (c :: before) d hd
  exact hAfter []

end DiceFormula.Text

namespace DiceFormula.Formula

open Text

/-- What normalization leaves as it is. -/
structure IsNormal (s : List Char) : Prop where
  ne_nil : s ≠ []
  unquoted : ∀ c ∈ s, isQuote c = false
  head : ∀ c ∈ s.head?, isBlank c = false
  last : ∀ c ∈ s.getLast?, isBlank c = false
  lowercase : ∀ c ∈ s, IsLowercaseChar c
  complete : complete s = s

/-! ## Completion -/

/-- The text is completed by a count, or by a count and the letter `d`. -/
theorem complete_cases (s : List Char) :
    complete s = s ∨ complete s = '1' :: s ∨ complete s = '1' :: 'd' :: s := by
  unfold complete
  split
  · exact .inr (.inr rfl)
  · split
    · split
      · exact .inr (.inl rfl)
      · exact .inl rfl
    · exact .inl rfl

theorem complete_complete (s : List Char) :
    complete (complete s) = complete s := by
  have hDie : ∀ t : List Char, complete ('1' :: 'd' :: t) = '1' :: 'd' :: t := by
    intro t
    have hLetter : ('1' :: 'd' :: t).all Char.isDigit = false := by
      rw [List.all_cons, List.all_cons]
      rfl
    unfold complete
    rw [hLetter]
    rfl
  fun_cases complete s with
  | case1 s => exact hDie s
  | case2 c rest => exact hDie (c :: rest)
  | case3 c rest hc hDigits =>
      unfold complete
      rw [if_neg hDigits]
      simp [hc]
  | case4 _ hDigits hNoDie =>
      unfold complete
      rw [if_neg hDigits]
      split
      · next c rest => exact absurd rfl (hNoDie c rest)
      · rfl

/-- A text that is complete is neither a bare number nor a die without a count. -/
theorem complete_eq_self_iff {s : List Char} :
    complete s = s ↔ s.all Char.isDigit = false ∧
      ∀ c rest, s = 'd' :: c :: rest → c.isDigit = false := by
  fun_cases complete s with
  | case1 s hDigits =>
      refine iff_of_false (fun hEq => ?_) fun h => ?_
      · have hLength := congrArg List.length hEq
        rw [List.length_cons, List.length_cons] at hLength
        omega
      · rw [hDigits] at h
        cases h.1
  | case2 c rest hDigit =>
      refine iff_of_false (fun hEq => ?_) fun h => ?_
      · cases hEq
      · rw [h.2 c rest rfl] at hDigit
        cases hDigit
  | case3 c rest hDigit hDigits =>
      refine iff_of_true rfl ⟨Bool.eq_false_iff.2 hDigits, ?_⟩
      rintro _ _ ⟨⟩
      exact Bool.eq_false_iff.2 hDigit
  | case4 s hDigits hNoDie =>
      exact iff_of_true rfl ⟨Bool.eq_false_iff.2 hDigits,
        fun c rest hEq => absurd hEq (hNoDie c rest)⟩

/-! ## Normal forms -/

theorem unquoted_bare {text : String} : ∀ c ∈ bare text, isQuote c = false := by
  intro c hc
  have hFilter := List.of_mem_filter (mem_of_mem_trim hc)
  simpa using hFilter

/-- Lowercasing brings in no quotes. -/
theorem unquoted_lowercase {s : List Char} (h : ∀ c ∈ s, isQuote c = false) :
    ∀ c ∈ lowercase s, isQuote c = false := by
  intro d hd
  obtain ⟨c, hc, _, _, hBetween⟩ := mem_lowercaseAfter hd
  rcases mem_lowercaseBetween hBetween with rfl | ⟨-, hLetter⟩
  · exact h d hc
  · refine Bool.eq_false_iff.2 fun hQuote => ?_
    rcases isQuote_iff.1 hQuote with rfl | rfl
    · exact absurd hLetter (by decide)
    · exact absurd hLetter (by decide)

/-- Completing a text puts nothing but a count and a `d` in front of it. -/
theorem IsNormal.of_complete {s : List Char} (hNil : s ≠ [])
    (hQuotes : ∀ c ∈ s, isQuote c = false)
    (hHead : ∀ c ∈ s.head?, isBlank c = false)
    (hLast : ∀ c ∈ s.getLast?, isBlank c = false)
    (hLowercase : ∀ c ∈ s, IsLowercaseChar c) :
    IsNormal (Formula.complete s) := by
  have hFront : ∀ c ∈ ['1', 'd'], isQuote c = false ∧ IsLowercaseChar c := by
    have hSmall : ∀ c ∈ ['1', 'd'], isQuote c = false ∧
        c.toNat < 0xC0 ∧ ¬ (65 ≤ c.toNat ∧ c.toNat ≤ 90) := by
      decide
    intro c hc
    obtain ⟨hQuote, hLow, hCapital⟩ := hSmall c hc
    exact ⟨hQuote, isLowercaseChar_of_lt hLow hCapital⟩
  have hMem : ∀ c ∈ Formula.complete s, c ∈ ['1', 'd'] ∨ c ∈ s := by
    intro c hc
    rcases complete_cases s with h | h | h
    · exact .inr (h ▸ hc)
    · rw [h, List.mem_cons] at hc
      exact hc.imp (fun hEq => by simp [hEq]) id
    · rw [h, List.mem_cons, List.mem_cons] at hc
      rcases hc with rfl | rfl | hc
      · exact .inl (by decide)
      · exact .inl (by decide)
      · exact .inr hc
  refine ⟨?_, ?_, ?_, ?_, ?_, complete_complete s⟩
  · rcases complete_cases s with h | h | h
    · rwa [h]
    · simp [h]
    · simp [h]
  · intro c hc
    exact (hMem c hc).elim (fun h => (hFront c h).1) (hQuotes c)
  · have hCount : isBlank '1' = false := by decide
    rcases complete_cases s with h | h | h
    · rwa [h]
    · simp [h, hCount]
    · simp [h, hCount]
  · intro c hc
    refine hLast c ?_
    obtain ⟨a, t, rfl⟩ := List.exists_cons_of_ne_nil hNil
    rcases complete_cases (a :: t) with h | h | h
    · rwa [h] at hc
    · rwa [h, List.getLast?_cons_cons] at hc
    · rwa [h, List.getLast?_cons_cons, List.getLast?_cons_cons] at hc
  · intro c hc
    exact (hMem c hc).elim (fun h => (hFront c h).2) (hLowercase c)

theorem normalize_eq_ok_iff {text normalForm : String} :
    normalize text = .ok normalForm ↔ bare text ≠ [] ∧
      (bare text).length ≤ maxLength ∧
        normalForm = String.ofList (complete (lowercase (bare text))) := by
  simp only [normalize]
  split
  · next hEmpty => exact iff_of_false nofun fun h => h.1 (List.isEmpty_iff.1 hEmpty)
  · next hEmpty =>
    split
    · next hLong => exact iff_of_false nofun fun h => Nat.not_lt.2 h.2.1 hLong
    · next hFits =>
      rw [Except.ok.injEq]
      refine ⟨fun h => ⟨?_, Nat.not_lt.1 hFits, h.symm⟩, fun h => h.2.2.symm⟩
      rwa [List.isEmpty_iff] at hEmpty

/-- What normalization answers is a normal form. -/
theorem isNormal_of_normalize {text normalForm : String}
    (h : normalize text = .ok normalForm) : IsNormal normalForm.toList := by
  obtain ⟨hNil, -, rfl⟩ := normalize_eq_ok_iff.1 h
  rw [String.toList_ofList]
  exact .of_complete (lowercaseAfter_ne_nil hNil []) (unquoted_lowercase unquoted_bare)
    (head?_lowercase head?_trim) (getLast?_lowercase getLast?_trim)
    (fun _ => isLowercaseChar_of_mem_lowercase)

/-- The blanks around a text are taken away in any case. -/
theorem bare_trimmed (text : String) : bare (trimmed text) = bare text := by
  rw [bare, bare, trimmed, String.toList_ofList, trim_filter_trim]

theorem normalize_trimmed (text : String) :
    normalize (trimmed text) = normalize text := by
  simp only [normalize, bare_trimmed]

theorem normalize_of_blank {text : String} (h : trimmed text = "") :
    normalize text = .error .empty := by
  rw [← normalize_trimmed, h]
  rfl

/-- Only quotes and the blanks at the ends are taken away. -/
theorem bare_eq_self {text : String} (hQuotes : ∀ c ∈ text.toList, isQuote c = false)
    (hHead : ∀ c ∈ text.toList.head?, isBlank c = false)
    (hLast : ∀ c ∈ text.toList.getLast?, isBlank c = false) :
    bare text = text.toList := by
  have hFilter : text.toList.filter (fun c => !isQuote c) = text.toList :=
    List.filter_eq_self.2 fun c hc => by rw [hQuotes c hc]; rfl
  rw [bare, hFilter, trim_eq_self hHead hLast]

theorem IsNormal.bare_eq {text : String} (h : IsNormal text.toList) :
    bare text = text.toList :=
  bare_eq_self h.unquoted h.head h.last

/-- A normal form is its own normal form, unless it is too long. -/
theorem normalize_of_isNormal {text : String} (h : IsNormal text.toList) :
    normalize text =
      if maxLength < text.length then .error (.tooLong text.length)
      else .ok text := by
  have hEmpty : text.toList.isEmpty = false := by
    rw [List.isEmpty_eq_false_iff]
    exact h.ne_nil
  simp only [normalize, h.bare_eq, hEmpty, lowercase_eq_self h.lowercase,
    h.complete, String.ofList_toList, String.length_toList]
  rfl

theorem normalize_of_le {text normalForm : String}
    (h : normalize text = .ok normalForm) (hLength : normalForm.length ≤ maxLength) :
    normalize normalForm = .ok normalForm := by
  rw [normalize_of_isNormal (isNormal_of_normalize h), if_neg (by omega)]

theorem normalize_of_lt {text normalForm : String}
    (h : normalize text = .ok normalForm) (hLength : maxLength < normalForm.length) :
    normalize normalForm = .error (.tooLong normalForm.length) := by
  rw [normalize_of_isNormal (isNormal_of_normalize h), if_pos hLength]

/-! ## The answers of normalization -/

theorem normalize_eq_empty_iff {text : String} :
    normalize text = .error .empty ↔ bare text = [] := by
  rw [← List.isEmpty_iff]
  simp only [normalize]
  cases (bare text).isEmpty with
  | true => exact iff_of_true rfl rfl
  | false =>
      refine iff_of_false (fun h => ?_) Bool.false_ne_true
      rw [if_neg Bool.false_ne_true] at h
      split at h
      · cases h
      · cases h

theorem normalize_eq_tooLong_iff {text : String} {n : Nat} :
    normalize text = .error (.tooLong n) ↔
      maxLength < (bare text).length ∧ n = (bare text).length := by
  simp only [normalize]
  split
  · next hEmpty =>
    rw [List.isEmpty_iff.1 hEmpty]
    exact iff_of_false nofun nofun
  · split
    · next hLong =>
      constructor
      · rintro ⟨⟩
        exact ⟨hLong, rfl⟩
      · rintro ⟨-, rfl⟩
        rfl
    · next hFits => exact iff_of_false nofun fun h => hFits h.1

/-- A text that is left neither empty nor too long has a normal form. -/
theorem exists_normalize_eq_ok {text : String} (hNil : bare text ≠ [])
    (hLength : (bare text).length ≤ maxLength) :
    ∃ normalForm, normalize text = .ok normalForm :=
  ⟨_, normalize_eq_ok_iff.2 ⟨hNil, hLength, rfl⟩⟩

/-- Let `u` be what is left of a text without its quotes and then without the
blanks around it. The text is refused as empty if `u` is, and as too long, with
the length of `u`, if that has more than a hundred characters. Every other text
has a normal form: it is not empty, holds no quotes, has no blanks at its ends, is
its own lowercase form, and is neither a bare number nor a die without a count.
Unless the normal form is too long, it is its own normal form. -/
theorem normalize_to_normal_form (text : String) :
    let u := trim (text.toList.filter fun c => !isQuote c)
    (normalize text = .error .empty ↔ u = []) ∧
    (∀ n, normalize text = .error (.tooLong n) ↔ 100 < u.length ∧ n = u.length) ∧
    (u ≠ [] → u.length ≤ 100 → ∃ normalForm, normalize text = .ok normalForm ∧
      normalForm ≠ "" ∧
      (∀ c ∈ normalForm.toList, isQuote c = false) ∧
      (∀ c ∈ normalForm.toList.head?, isBlank c = false) ∧
      (∀ c ∈ normalForm.toList.getLast?, isBlank c = false) ∧
      lowercase normalForm.toList = normalForm.toList ∧
      normalForm.toList.all Char.isDigit = false ∧
      (∀ c rest, normalForm.toList = 'd' :: c :: rest → c.isDigit = false) ∧
      (normalForm.length ≤ 100 → normalize normalForm = .ok normalForm)) := by
  refine ⟨normalize_eq_empty_iff, fun n => normalize_eq_tooLong_iff, ?_⟩
  intro hNil hLength
  obtain ⟨normalForm, hOk⟩ := exists_normalize_eq_ok hNil hLength
  have hNormal := isNormal_of_normalize hOk
  obtain ⟨hDigits, hDie⟩ := complete_eq_self_iff.1 hNormal.complete
  have hNe : normalForm ≠ "" := by
    rintro rfl
    exact hNormal.ne_nil rfl
  exact ⟨normalForm, hOk, hNe, hNormal.unquoted, hNormal.head, hNormal.last,
    lowercase_eq_self hNormal.lowercase, hDigits, hDie, normalize_of_le hOk⟩

end DiceFormula.Formula
