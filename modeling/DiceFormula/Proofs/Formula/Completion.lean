import DiceFormula.Proofs.Breakdown.DieText
import DiceFormula.Proofs.Formula.NormalForm
import DiceFormula.Proofs.Notation.Expr

/-!
# What completion means

Completion puts characters in front of a text before anything is known about the
rest of it. For a die without a count that changes no meaning: a text that starts
with the letter `d` can only be read with a set of dice in front, and a count that
is left out is one. So the text derives what it derives with the count in front,
whatever follows, and derives nothing if that derives nothing. A bare number is
the one text whose meaning is changed. What it is completed to is a single die if
the number is one of sides, and is not in the notation otherwise.

## Main results

* `Expr.derives_withCount_iff` — a count of one may be left out at the front of an
  expression.
* `Expr.read?_withCount` — the same for reading, in capital or small letters.
* `Expr.derives_digits_iff` — a die with nothing but digits on its sides.
* `completion_keeps_meaning` — what normalization does to the meaning of a text.
-/

namespace DiceFormula

open Text Text.Reader

/-! ## Lowercase texts -/

namespace Text

theorem isLowercaseChar_d : IsLowercaseChar 'd' :=
  isLowercaseChar_of_lt (by decide) (by decide)

theorem lowercase_d (s : List Char) :
    lowercase ('d' :: s) = 'd' :: lowercaseAfter ['d'] s := by
  rw [lowercase, lowercaseAfter, lowercaseBetween_eq_self isLowercaseChar_d]
  rfl

-- The table of transparent characters is looked through to its end.
set_option maxRecDepth 4000 in
theorem lowercase_withCount (s : List Char) :
    lowercase ('1' :: 'd' :: s) = '1' :: lowercase ('d' :: s) := by
  have hCount : IsLowercaseChar '1' := isLowercaseChar_of_isDigit (by decide)
  have hOpaque : CaseTable.inIntervals CaseTable.transparentIntervals 'd'.toNat =
      false := by
    decide
  have hRest : lowercaseAfter ['d', '1'] s = lowercaseAfter ['d'] s :=
    lowercaseAfter_append hOpaque [] ['1'] [] s
  rw [lowercase_d, ← hRest]
  simp only [lowercase, lowercaseAfter, lowercaseBetween_eq_self hCount,
    lowercaseBetween_eq_self isLowercaseChar_d, List.cons_append, List.nil_append]

/-- A bare number has no capital letters. -/
theorem lowercase_of_digits {s : List Char} (hDigits : ∀ c ∈ s, c.isDigit = true) :
    lowercase s = s :=
  lowercase_eq_self fun c hc => isLowercaseChar_of_isDigit (hDigits c hc)

theorem lowercase_withCount_of_digits {s : List Char}
    (hDigits : ∀ c ∈ s, c.isDigit = true) :
    lowercase ('1' :: 'd' :: s) = '1' :: 'd' :: s := by
  have hLetter : ∀ c ∈ 'd' :: s, IsLowercaseChar c := List.forall_mem_cons.2
    ⟨isLowercaseChar_d, fun c hc => isLowercaseChar_of_isDigit (hDigits c hc)⟩
  rw [lowercase_withCount, lowercase_eq_self hLetter]

end Text

/-! ## The count of a set in front -/

theorem CountDerives.isDigit {s : List Char} {count : UInt16}
    (h : CountDerives s count) : ∀ c ∈ s, c.isDigit = true := by
  obtain ⟨n, hCount, -⟩ := h
  cases hCount with
  | piece h => exact h.isDigit
  | nothing => nofun

theorem countDerives_nil_iff {count : UInt16} :
    CountDerives [] count ↔ count.toNat = 1 := by
  constructor
  · rintro ⟨n, hCount, hn⟩
    cases hCount with
    | nothing => exact hn
    | piece h => exact absurd rfl h.ne_nil
  · exact fun h => ⟨none, .nothing, h⟩

theorem countDerives_one_iff {count : UInt16} :
    CountDerives ['1'] count ↔ count.toNat = 1 := by
  constructor
  · rintro ⟨n, hCount, hn⟩
    cases hCount with
    | piece h =>
      cases h with
      | digits => exact hn
  · exact fun h => ⟨some 1, .piece (isNumeral_toDigits 1), h⟩

/-- A set of dice with nothing but digits behind the letter `d` is a single die. -/
theorem Dice.Derives.eq_of_digits {s : List Char} {d : Dice}
    (h : d.Derives ('d' :: s)) (hDigits : ∀ c ∈ s, c.isDigit = true) :
    ∃ n : UInt16, d = ⟨1, .numbered n, []⟩ ∧ IsNumeral s n.toNat ∧ 1 ≤ n.toNat := by
  generalize hText : 'd' :: s = text at h
  cases h with
  | @mk p t u count sides ms hCount hPos hSides hModifiers hSelect =>
      have hFront : ∀ c ∈ p, c.isDigit = true := hCount.isDigit
      cases p with
      | cons c p =>
          cases hText
          exact absurd (hFront 'd' List.mem_cons_self) (by decide)
      | nil =>
          cases hText
          have hOne : count = 1 := UInt16.toNat_inj.1 (countDerives_nil_iff.1 hCount)
          cases hModifiers with
          | @cons v w m ms h =>
              have hStarts : ∀ c ∈ modifierStarts, c.isDigit ≠ true := by decide
              obtain ⟨c, v, rfl, hc⟩ := h.exists_head
              exact absurd (hDigits c (by simp)) (hStarts c hc)
          | nil =>
              rw [List.append_nil] at hDigits ⊢
              cases hSides with
              | fate => exact absurd (hDigits 'f' (by simp)) (by decide)
              | percentile => exact absurd (hDigits '%' (by simp)) (by decide)
              | @numbered t n h hSidesPos =>
                  rw [hOne]
                  exact ⟨n, rfl, h, hSidesPos⟩

namespace Expr

variable {level : Level} {s p p' q : List Char} {e : Expr Dice}

/-- A piece that ends in front of something else than a digit or a `d` holds the
count and the letter that the whole text starts with. -/
theorem exists_eq_of_append {rest : List Char} (hDigits : ∀ c ∈ p, c.isDigit = true)
    (hRest : Clear diceStops rest) (h : s ++ rest = p ++ 'd' :: q) :
    ∃ r, s = p ++ 'd' :: r ∧ q = r ++ rest := by
  have hLetter : 'd' ∈ diceStops := by decide
  rcases List.append_eq_append_iff.1 h with ⟨t, rfl, hText⟩ | ⟨t, rfl, hText⟩
  · -- The rest would start with a digit of the count or with the letter.
    cases t with
    | nil =>
        have hHead : rest.head? = some 'd' := by rw [hText]; rfl
        exact absurd hHead (hRest.head?_ne hLetter)
    | cons c t =>
        have hHead := (hRest c (by rw [hText]; rfl)).1
        rw [hDigits c (by simp)] at hHead
        cases hHead
  · cases t with
    | nil =>
        have hHead : rest.head? = some 'd' := by
          rw [List.nil_append] at hText
          rw [← hText]
          rfl
        exact absurd hHead (hRest.head?_ne hLetter)
    | cons c t =>
        cases hText
        exact ⟨t, rfl, rfl⟩

/-- A text that starts with a count and the letter `d` starts neither with a blank
nor with a sign or a parenthesis. -/
theorem head_of_count (hDigits : ∀ c ∈ p, c.isDigit = true) {c : Char}
    {r : List Char} (h : p ++ 'd' :: q = c :: r) :
    isBlank c = false ∧ c ≠ '-' ∧ c ≠ '(' := by
  cases p with
  | nil =>
      cases h
      decide
  | cons d p =>
      cases h
      have hDigit := hDigits c (by simp)
      refine ⟨isBlank_of_isDigit hDigit, ?_, ?_⟩
      · rintro rfl
        exact absurd hDigit (by decide)
      · rintro rfl
        exact absurd hDigit (by decide)

/-- No blanks stand in front of a count. -/
theorem eq_nil_of_count {before : List Char} (hDigits : ∀ c ∈ p, c.isDigit = true)
    (hBefore : ∀ c ∈ before, isBlank c = true) (h : before ++ s = p ++ 'd' :: q) :
    before = [] := by
  cases before with
  | nil => rfl
  | cons c before =>
      have hBlank := hBefore c List.mem_cons_self
      rw [(head_of_count hDigits h.symm).1] at hBlank
      cases hBlank

/-- The count in front of an expression can be written in another way. -/
theorem Derives.of_count (hDigits : ∀ c ∈ p, c.isDigit = true)
    (hCounts : ∀ count, CountDerives p count → CountDerives p' count)
    (h : Derives level s e) (hText : s = p ++ 'd' :: q) :
    Derives level (p' ++ 'd' :: q) e := by
  -- The first operand of a chain starts as the whole chain does.
  have hOperand : ∀ {s o t q : List Char} {c : Char}, IsPadded [c] o →
      isBlank c = false → c ∈ operandEnds → s ++ o ++ t = p ++ 'd' :: q →
        ∃ r, s = p ++ 'd' :: r ∧ q = r ++ (o ++ t) := by
    intro s o t q c hSymbol hBlank hEnds hText
    rw [List.append_assoc] at hText
    have hClear : Clear diceStops ([] ++ (o ++ t)) :=
      clear_of_follows (by simp) (follows_isPadded hSymbol hBlank hEnds t)
    exact exists_eq_of_append hDigits hClear hText
  induction h generalizing q with
  | @dice s d h =>
      cases h with
      | @mk s t u count sides ms hCount hPos hSides hModifiers hSelect =>
          have hLetter : ∀ (v : List Char), ∀ c ∈ ('d' :: v).head?,
              c.isDigit = false := by
            rintro v _ ⟨⟩
            rfl
          obtain ⟨rfl, hRest⟩ := append_inj_of_boundary hCount.isDigit hDigits
            (hLetter _) (hLetter _) hText
          cases hRest
          exact .dice (.mk (hCounts count hCount) hPos hSides hModifiers hSelect)
  | num h =>
      obtain ⟨n, hNumeral, -⟩ := h
      have hLetter := hNumeral.isDigit 'd' (by rw [hText]; simp)
      exact absurd hLetter (by decide)
  | group h _ => exact absurd rfl (head_of_count hDigits hText.symm).2.2
  | @padded s t e h hBlanks ih =>
      obtain ⟨before, after, hBefore, hAfter, rfl⟩ := hBlanks
      rw [List.append_assoc] at hText
      obtain rfl := eq_nil_of_count hDigits hBefore hText
      have hClear := clear_of_follows hAfter (follows_nil operandEnds)
      rw [List.append_nil] at hClear
      obtain ⟨r, hs, rfl⟩ := exists_eq_of_append hDigits hClear hText
      exact .padded (ih hs) ⟨[], after, by simp, hAfter, by simp⟩
  | neg hSign h _ =>
      obtain ⟨before, after, hBefore, -, rfl⟩ := hSign
      simp only [List.append_assoc] at hText
      obtain rfl := eq_nil_of_count hDigits hBefore hText
      exact absurd rfl (head_of_count hDigits hText.symm).2.1
  | signed h ih => exact .signed (ih hText)
  | mul ha hSymbol hb iha _ =>
      obtain ⟨r, hs, rfl⟩ := hOperand hSymbol (by decide) (by decide) hText
      simpa using Derives.mul (iha hs) hSymbol hb
  | div ha hSymbol hb hZero iha _ =>
      obtain ⟨r, hs, rfl⟩ := hOperand hSymbol (by decide) (by decide) hText
      simpa using Derives.div (iha hs) hSymbol hb hZero
  | product h ih => exact .product (ih hText)
  | add ha hSymbol hb iha _ =>
      obtain ⟨r, hs, rfl⟩ := hOperand hSymbol (by decide) (by decide) hText
      simpa using Derives.add (iha hs) hSymbol hb
  | sub ha hSymbol hb iha _ =>
      obtain ⟨r, hs, rfl⟩ := hOperand hSymbol (by decide) (by decide) hText
      simpa using Derives.sub (iha hs) hSymbol hb

/-- In front of an expression that starts with a `d` a count of one can be added or
left out. -/
theorem derives_withCount_iff :
    Derives level ('1' :: 'd' :: q) e ↔ Derives level ('d' :: q) e := by
  constructor
  · intro h
    have hCounts : ∀ count, CountDerives ['1'] count → CountDerives [] count :=
      fun count hCount => countDerives_nil_iff.2 (countDerives_one_iff.1 hCount)
    exact h.of_count (by decide) hCounts rfl
  · intro h
    have hCounts : ∀ count, CountDerives [] count → CountDerives ['1'] count :=
      fun count hCount => countDerives_one_iff.2 (countDerives_nil_iff.1 hCount)
    exact h.of_count (by simp) hCounts rfl

/-- A text that starts with a `d` is read as it is with the count one in front,
whatever follows. -/
theorem read?_withCount {text : String} {rest : List Char}
    (h : text.toList = 'd' :: rest) :
    Expr.read? ("1" ++ text) = Expr.read? text := by
  have hCounted : ("1" ++ text).toList = '1' :: 'd' :: rest := by
    rw [String.toList_append, h]
    rfl
  refine Option.ext fun e => ?_
  rw [read?_eq_some_iff, read?_eq_some_iff, hCounted, h, lowercase_withCount, lowercase_d]
  exact derives_withCount_iff

/-! ## Bare numbers -/

/-- Without blanks and operators there is a single operand. -/
theorem Derives.atom_of_plain (h : Derives level s e)
    (hPlain : ∀ c ∈ s, isBlank c = false ∧ c ∉ operandEnds) : Derives .atom s e := by
  have hSigned : ∀ {c : Char} {o : List Char}, IsPadded [c] o → c ∈ operandEnds →
      ¬ ∀ d ∈ o, isBlank d = false ∧ d ∉ operandEnds := by
    rintro c _ ⟨before, after, -, -, rfl⟩ hSign hAll
    exact (hAll c (by simp)).2 hSign
  induction h with
  | dice h => exact .dice h
  | num h => exact .num h
  | group h _ => exact .group h
  | @padded s t e h hBlanks ih =>
      obtain ⟨before, after, hBefore, hAfter, rfl⟩ := hBlanks
      have hNone : ∀ {blanks : List Char}, (∀ c ∈ blanks, isBlank c = true) →
          (∀ c ∈ blanks, c ∈ before ++ s ++ after) → blanks = [] := by
        intro blanks hBlank hMem
        refine List.eq_nil_iff_forall_not_mem.2 fun c hc => ?_
        have hNot := (hPlain c (hMem c hc)).1
        rw [hBlank c hc] at hNot
        cases hNot
      have hFront := hNone hBefore fun c hc => by simp [hc]
      have hBack := hNone hAfter fun c hc => by simp [hc]
      subst hFront hBack
      rw [List.nil_append, List.append_nil] at hPlain ⊢
      exact ih hPlain
  | neg hSign =>
      exact absurd (fun d hd => hPlain d (by simp [hd])) (hSigned hSign (by decide))
  | signed _ ih => exact ih hPlain
  | mul _ hSymbol =>
      exact absurd (fun d hd => hPlain d (by simp [hd])) (hSigned hSymbol (by decide))
  | div _ hSymbol =>
      exact absurd (fun d hd => hPlain d (by simp [hd])) (hSigned hSymbol (by decide))
  | product _ ih => exact ih hPlain
  | add _ hSymbol =>
      exact absurd (fun d hd => hPlain d (by simp [hd])) (hSigned hSymbol (by decide))
  | sub _ hSymbol =>
      exact absurd (fun d hd => hPlain d (by simp [hd])) (hSigned hSymbol (by decide))

/-- A `d` with nothing but digits behind it is a die with that many sides, if this is
a numeral of sides. -/
theorem derives_digits_iff (hDigits : ∀ c ∈ q, c.isDigit = true) :
    Derives .sum ('d' :: q) e ↔ ∃ n : UInt16, IsNumeral q n.toNat ∧ 1 ≤ n.toNat ∧
      e = .dice ⟨1, .numbered n, []⟩ := by
  constructor
  · intro h
    have hPlain : ∀ c ∈ 'd' :: q, isBlank c = false ∧ c ∉ operandEnds := by
      have hEnds : ∀ c ∈ operandEnds, c.isDigit ≠ true := by decide
      refine List.forall_mem_cons.2 ⟨by decide, fun c hc => ?_⟩
      exact ⟨isBlank_of_isDigit (hDigits c hc), fun hMem => hEnds c hMem (hDigits c hc)⟩
    generalize hText : 'd' :: q = text at h hPlain
    have hAtom := h.atom_of_plain hPlain
    cases hAtom with
    | num hNum =>
        obtain ⟨n, hNumeral, -⟩ := hNum
        have hLetter := hNumeral.isDigit 'd' (by simp [← hText])
        exact absurd hLetter (by decide)
    | group => cases hText
    | dice hDice =>
        subst hText
        obtain ⟨n, rfl, hNumeral, hPos⟩ := hDice.eq_of_digits hDigits
        exact ⟨n, hNumeral, hPos, rfl⟩
  · rintro ⟨n, hNumeral, hPos, rfl⟩
    have hDice : Dice.Derives ('d' :: (q ++ [])) ⟨1, .numbered n, []⟩ :=
      .mk (s := []) (countDerives_nil_iff.2 rfl) (by decide)
        (.numbered hNumeral hPos) .nil (by simp)
    rw [List.append_nil] at hDice
    exact .product (.signed (.padded (.dice hDice) (isPadded_self _)))

/-- The number a text of digits stands for is in the numeral, if it is positive and
does not start with a zero. -/
theorem isNumeral_iff_of_digits {n : Nat} (hNil : q ≠ [])
    (hDigits : ∀ c ∈ q, c.isDigit = true) (hPos : 1 ≤ n) :
    IsNumeral q n ↔ q.head? ≠ some '0' ∧ Nat.ofDigitChars 10 q 0 = n := by
  constructor
  · intro h
    cases h with
    | zero => exact absurd hPos (by decide)
    | digits hFirst _ => exact ⟨by simpa using hFirst, rfl⟩
  · rintro ⟨hFirst, rfl⟩
    obtain ⟨c, t, rfl⟩ := List.exists_cons_of_ne_nil hNil
    exact .digits (by simpa using hFirst) hDigits

/-- A single die with the sides that a text of digits tells. -/
theorem read?_bareNumber {s : List Char} (hNil : s ≠ [])
    (hDigits : ∀ c ∈ s, c.isDigit = true) :
    Expr.read? (String.ofList ('1' :: 'd' :: s)) = some e ↔
      s.head? ≠ some '0' ∧ ∃ n : UInt16, 1 ≤ n.toNat ∧
        Nat.ofDigitChars 10 s 0 = n.toNat ∧ e = .dice ⟨1, .numbered n, []⟩ := by
  rw [read?_eq_some_iff, String.toList_ofList, lowercase_withCount_of_digits hDigits,
    derives_withCount_iff, derives_digits_iff hDigits]
  constructor
  · rintro ⟨n, hNumeral, hPos, rfl⟩
    obtain ⟨hFirst, hValue⟩ := (isNumeral_iff_of_digits hNil hDigits hPos).1 hNumeral
    exact ⟨hFirst, n, hPos, hValue, rfl⟩
  · rintro ⟨hFirst, n, hPos, hValue, rfl⟩
    have hNumeral := (isNumeral_iff_of_digits hNil hDigits hPos).2 ⟨hFirst, hValue⟩
    exact ⟨n, hNumeral, hPos, rfl⟩

end Expr

namespace Formula

/-! ## Normal forms -/

/-- Unless a text is a bare number, it is read as it is when it has been
completed. -/
theorem read?_complete {s : List Char} (h : s.all Char.isDigit = false) :
    Expr.read? (String.ofList (complete s)) = Expr.read? (String.ofList s) := by
  fun_cases complete s with
  | case1 s hDigits =>
      rw [hDigits] at h
      cases h
  | case2 c rest =>
      have hText : (String.ofList ('d' :: c :: rest)).toList = 'd' :: c :: rest :=
        String.toList_ofList
      rw [← Expr.read?_withCount hText, ← String.ofList_toList (s := "1" ++ _),
        String.toList_append, hText]
      rfl
  | case3 => rfl
  | case4 => rfl

/-- A bare number has no capital letters, and is completed to a single die. -/
theorem complete_lowercase_of_digits {s : List Char}
    (hDigits : ∀ c ∈ s, c.isDigit = true) :
    complete (lowercase s) = '1' :: 'd' :: s := by
  rw [lowercase_of_digits hDigits]
  exact if_pos (List.all_eq_true.2 hDigits)

/-- A text is read as its lowercase form. -/
theorem read?_lowercase (s : List Char) :
    Expr.read? (String.ofList (lowercase s)) = Expr.read? (String.ofList s) := by
  simp only [Expr.read?, String.toList_ofList, lowercase_lowercase]

/-- Completion changes what is meant by a bare number only: any other text without
its quotes and its blanks around is read as its normal form is, or neither can be
read. The normal form of a number is a single die with that many sides, if it has no
leading zero and a die can have so many, and cannot be read otherwise. Nor does a
count of one in front of the letter `d` change what a text means. -/
theorem completion_keeps_meaning (text : String) :
    let u := trim (text.toList.filter fun c => !isQuote c)
    (∀ normalForm, normalize text = .ok normalForm →
      (u.all Char.isDigit = false →
        Expr.read? normalForm = Expr.read? (String.ofList u)) ∧
      (u.all Char.isDigit = true →
        let n := Nat.ofDigitChars 10 u 0
        (u.head? ≠ some '0' ∧ 1 ≤ n ∧ n ≤ 65535 → Expr.read? normalForm =
          some (.dice ⟨1, .numbered (UInt16.ofNat n), []⟩)) ∧
        (¬ (u.head? ≠ some '0' ∧ 1 ≤ n ∧ n ≤ 65535) →
          Expr.read? normalForm = none))) ∧
    ∀ rest, text.toList = 'd' :: rest →
      Expr.read? ("1" ++ text) = Expr.read? text := by
  refine ⟨fun normalForm hOk => ?_, fun rest => Expr.read?_withCount⟩
  obtain ⟨hNil, -, rfl⟩ := normalize_eq_ok_iff.1 hOk
  change bare text ≠ [] at hNil
  refine ⟨fun hDigits => ?_, fun hDigits => ?_⟩
  · have hLowercase : (lowercase (bare text)).all Char.isDigit = false := by
      rw [all_isDigit_lowercase]
      exact hDigits
    rw [read?_complete hLowercase, read?_lowercase]
    rfl
  · have hAll : ∀ c ∈ bare text, c.isDigit = true := List.all_eq_true.1 hDigits
    rw [complete_lowercase_of_digits hAll]
    constructor
    · rintro ⟨hFirst, hPos, hMax⟩
      have hValue : (UInt16.ofNat (Nat.ofDigitChars 10 (bare text) 0)).toNat =
          Nat.ofDigitChars 10 (bare text) 0 :=
        UInt16.toNat_ofNat_of_lt' (Nat.lt_succ_of_le hMax)
      refine (Expr.read?_bareNumber hNil hAll).2 ⟨hFirst, _, ?_, hValue.symm, rfl⟩
      rw [hValue]
      exact hPos
    · intro hNot
      refine Option.eq_none_iff_forall_not_mem.2 fun e hRead => hNot ?_
      obtain ⟨hFirst, n, hPos, hValue, -⟩ := (Expr.read?_bareNumber hNil hAll).1 hRead
      have hMax : n.toNat ≤ 65535 := Nat.le_of_lt_succ n.toNat_lt
      rw [← hValue] at hPos hMax
      exact ⟨hFirst, hPos, hMax⟩

set_option maxRecDepth 8000 in
/-- A die without a count, a bare number, and a text that cannot be read with a count
or without. -/
theorem completion_keeps_meaning_die :
    Expr.read? "1d20 + 5" = Expr.read? "D20 + 5" ∧
    Expr.read? "1d20" = some (.dice ⟨1, .numbered 20, []⟩) ∧
    Expr.read? "1d007" = none ∧
    Expr.read? "1d20 kept" = Expr.read? "d20 kept" := by
  refine ⟨?_, ?_, ?_, ?_⟩
  · exact ((completion_keeps_meaning "\x22D20 + 5\x22").1 "1d20 + 5"
      (by decide)).1 (by decide)
  · exact (((completion_keeps_meaning "20").1 "1d20"
      (by decide)).2 (by decide)).1 (by decide)
  · exact (((completion_keeps_meaning "007").1 "1d007"
      (by decide)).2 (by decide)).2 (by decide)
  · exact (completion_keeps_meaning "d20 kept").2 "20 kept".toList (by decide)

end Formula

end DiceFormula
