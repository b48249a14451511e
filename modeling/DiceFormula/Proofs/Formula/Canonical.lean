import DiceFormula.Proofs.Expr.Evaluation
import DiceFormula.Proofs.Formula.Halts
import DiceFormula.Proofs.Formula.NormalForm

/-!
# Canonical notations as formulas

A canonical notation is a text like any other, and can be rolled as a formula.
Normalization leaves it as it is, but for the letter of the fate dice: it begins
with a digit, a sign or a parenthesis and does not end with a blank, so nothing
is trimmed away and no count is missing; and it is a bare number only if the
expression is one. A formula never denotes a bare number, because one that is
typed is completed to a die before it is read.

## Main results

* `Expr.startsIn_text`, `Expr.endsIn_text` — the ends of layouts.
* `expr_ne_num` — no formula denotes a bare number.
* `read_canonical` — the canonical notation of a formula denotes what the
  formula does.
* `canonical_stands_in` — and rolling it is rolling the formula.
-/

namespace DiceFormula

open Text Text.Reader

/-! ## Ends of texts -/

/-- The text has a first character, and `P` holds of it. -/
def StartsIn (P : Char → Prop) (s : List Char) : Prop := ∃ c t, s = c :: t ∧ P c

/-- The text has a last character, and `P` holds of it. -/
def EndsIn (P : Char → Prop) (s : List Char) : Prop := ∃ t c, s = t ++ [c] ∧ P c

section Ends

variable {P : Char → Prop} {s : List Char}

theorem StartsIn.append (h : StartsIn P s) (t : List Char) :
    StartsIn P (s ++ t) := by
  obtain ⟨c, u, rfl, hc⟩ := h
  exact ⟨c, u ++ t, rfl, hc⟩

theorem EndsIn.append (h : EndsIn P s) (t : List Char) : EndsIn P (t ++ s) := by
  obtain ⟨u, c, rfl, hc⟩ := h
  exact ⟨t ++ u, c, (List.append_assoc ..).symm, hc⟩

theorem EndsIn.getLast? (h : EndsIn P s) : ∀ c ∈ s.getLast?, P c := by
  obtain ⟨t, c, rfl, hc⟩ := h
  intro d hd
  rw [List.getLast?_concat] at hd
  cases hd
  exact hc

theorem StartsIn.of_forall (hNil : s ≠ []) (h : ∀ c ∈ s, P c) :
    StartsIn P s := by
  obtain ⟨c, t, rfl⟩ := List.exists_cons_of_ne_nil hNil
  exact ⟨c, t, rfl, h c List.mem_cons_self⟩

theorem EndsIn.of_forall (hNil : s ≠ []) (h : ∀ c ∈ s, P c) : EndsIn P s :=
  ⟨s.dropLast, s.getLast hNil, (List.dropLast_append_getLast hNil).symm,
    h _ (List.getLast_mem hNil)⟩

theorem StartsIn.parenthesize {text : String} (hParenthesis : P '(')
    (h : StartsIn P text.toList) (wrap : Bool) :
    StartsIn P (parenthesize wrap text).toList := by
  cases wrap with
  | false => exact h
  | true =>
      refine ⟨'(', text.toList ++ [')'], ?_, hParenthesis⟩
      simp [DiceFormula.parenthesize, String.toList_append]

theorem EndsIn.parenthesize {text : String} (hParenthesis : P ')')
    (h : EndsIn P text.toList) (wrap : Bool) :
    EndsIn P (parenthesize wrap text).toList := by
  cases wrap with
  | false => exact h
  | true =>
      refine ⟨'(' :: text.toList, ')', ?_, hParenthesis⟩
      simp [DiceFormula.parenthesize, String.toList_append]

end Ends

namespace Expr

variable {δ : Type} {leaf : δ → String}

/-- The characters an expression may start with. -/
def IsOpening (c : Char) : Prop := c.isDigit = true ∨ c = '(' ∨ c = '-'

theorem IsOpening.plain {c : Char} (h : IsOpening c) :
    isBlank c = false ∧ lowercaseChar c = c ∧ c ≠ 'd' := by
  rcases h with hDigit | rfl | rfl
  · refine ⟨isBlank_of_isDigit hDigit, ?_, ?_⟩
    · exact (IsNotation.isLowercaseChar (.inl hDigit)).2.2
    · rintro rfl
      exact absurd hDigit (by decide)
  · decide
  · decide

/-- A layout starts with a digit, a parenthesis or a sign, if its sets do. -/
theorem startsIn_text {e : Expr δ}
    (h : ∀ d ∈ e.sets, StartsIn IsOpening (leaf d).toList) :
    StartsIn IsOpening (e.text leaf).toList := by
  induction e with
  | num n =>
      refine .of_forall (Value.text_toList_ne_nil n) fun c hc => ?_
      exact (Value.mem_text hc).imp_right .inr
  | dice d => exact h d (by simp [sets])
  | group e ih => exact (ih h).parenthesize (.inr (.inl rfl)) true
  | neg e ih =>
      rw [text, String.toList_append]
      exact ⟨'-', _, rfl, .inr (.inr rfl)⟩
  | binary op a b iha ihb =>
      have hLeft := iha fun d hd => h d (List.mem_append_left _ hd)
      simp only [text, String.toList_append, List.append_assoc]
      exact (hLeft.parenthesize (.inr (.inl rfl)) _).append _

/-- A layout does not end with a blank, if its sets do not. -/
theorem endsIn_text {e : Expr δ}
    (h : ∀ d ∈ e.sets, EndsIn (isBlank · = false) (leaf d).toList) :
    EndsIn (isBlank · = false) (e.text leaf).toList := by
  have hParenthesis : isBlank ')' = false := by decide
  induction e with
  | num n =>
      refine .of_forall (Value.text_toList_ne_nil n) fun c hc => ?_
      rcases Value.mem_text hc with hDigit | rfl
      · exact isBlank_of_isDigit hDigit
      · decide
  | dice d => exact h d (by simp [sets])
  | group e ih => exact (ih h).parenthesize hParenthesis true
  | neg e ih =>
      rw [text, String.toList_append]
      exact ((ih h).parenthesize hParenthesis _).append _
  | binary op a b iha ihb =>
      have hRight := ihb fun d hd => h d (List.mem_append_right _ hd)
      rw [text, String.toList_append]
      exact (hRight.parenthesize hParenthesis _).append _

/-! ## Canonical notations -/

theorem startsIn_canonical (e : Expr Dice) :
    StartsIn IsOpening e.canonical.toList := by
  refine startsIn_text fun d _ => ?_
  have hCount : StartsIn IsOpening d.count.toNat.repr.toList :=
    .of_forall (repr_toList_ne_nil _) fun c hc => .inl (isDigit_of_mem_repr hc)
  simp only [Dice.text, String.toList_append, List.append_assoc]
  exact hCount.append _

/-- No character in the notation of a set of dice is taken away from a
formula. -/
theorem not_stripped_of_isNotation {c : Char} (h : IsNotation c ∨ c = 'F') :
    isBlank c = false ∧ Formula.isQuote c = false := by
  have hLetters : ∀ c ∈ 'F' :: Dice.letters,
      isBlank c = false ∧ Formula.isQuote c = false := by
    decide
  rcases h with (hDigit | hLetter) | rfl
  · refine ⟨isBlank_of_isDigit hDigit, ?_⟩
    refine Bool.eq_false_iff.2 fun hQuote => ?_
    rcases Formula.isQuote_iff.1 hQuote with rfl | rfl
    · exact absurd hDigit (by decide)
    · exact absurd hDigit (by decide)
  · exact hLetters c (List.mem_cons_of_mem _ hLetter)
  · exact hLetters 'F' List.mem_cons_self

theorem endsIn_canonical (e : Expr Dice) :
    EndsIn (isBlank · = false) e.canonical.toList := by
  refine endsIn_text fun d _ => .of_forall ?_ fun c hc => ?_
  · simp [Dice.text, String.toList_append]
  · exact (not_stripped_of_isNotation (Dice.isNotation_text c hc)).1

theorem unquoted_canonical {e : Expr Dice} :
    ∀ c ∈ e.canonical.toList, Formula.isQuote c = false := by
  intro c hc
  have hSigns : ∀ c ∈ layoutSigns, Formula.isQuote c = false := by decide
  rcases mem_text hc with hSign | hNotation | ⟨d, -, hLeaf⟩
  · exact hSigns c hSign
  · exact (not_stripped_of_isNotation (.inl hNotation)).2
  · exact (not_stripped_of_isNotation (Dice.isNotation_text c hLeaf)).2

/-! ## Bare numbers -/

/-- Only a bare number is written with nothing but digits. -/
theorem Derives.exists_not_digit {level : Level} {s : List Char} {e : Expr Dice}
    (h : Derives level s e) (hNum : ∀ n, e ≠ .num n) :
    ∃ c ∈ s, c.isDigit = false := by
  have hSign : ∀ {c : Char} {o : List Char}, IsPadded [c] o →
      c.isDigit = false → ∃ d ∈ o, d.isDigit = false := by
    rintro c _ ⟨before, after, -, -, rfl⟩ hc
    exact ⟨c, by simp, hc⟩
  have hBetween : ∀ {s o t : List Char}, (∃ d ∈ o, d.isDigit = false) →
      ∃ d ∈ s ++ o ++ t, d.isDigit = false := by
    rintro s o t ⟨d, hd, hDigit⟩
    exact ⟨d, by simp [hd], hDigit⟩
  induction h with
  | dice h =>
      obtain ⟨s, t, rfl, -⟩ := h.exists_split
      exact ⟨'d', by simp, by decide⟩
  | num h => exact absurd rfl (hNum _)
  | group h _ => exact ⟨'(', by simp, by decide⟩
  | padded h hBlanks ih =>
      obtain ⟨c, hc, hDigit⟩ := ih hNum
      obtain ⟨before, after, -, -, rfl⟩ := hBlanks
      exact ⟨c, by simp [hc], hDigit⟩
  | neg hSymbol h _ =>
      obtain ⟨c, hc, hDigit⟩ := hSign hSymbol (by decide)
      exact ⟨c, List.mem_append_left _ hc, hDigit⟩
  | signed h ih => exact ih hNum
  | mul _ hSymbol => exact hBetween (hSign hSymbol (by decide))
  | div _ hSymbol => exact hBetween (hSign hSymbol (by decide))
  | product h ih => exact ih hNum
  | add _ hSymbol => exact hBetween (hSign hSymbol (by decide))
  | sub _ hSymbol => exact hBetween (hSign hSymbol (by decide))

/-- A bare number is written as a numeral with blanks around it. -/
theorem Derives.exists_numeral {s : List Char} {n : Value}
    (h : Derives .sum s (.num n)) :
    ∃ p, IsPadded p s ∧ Value.Derives p n := by
  cases h with
  | product h =>
    cases h with
    | signed h =>
      cases h with
      | padded h hBlanks =>
        cases h with
        | num h => exact ⟨_, hBlanks, h⟩

end Expr

namespace Formula

/-- A normal form is not a bare number, since that would have been completed. -/
theorem IsNormal.ne_num {s : List Char} (h : IsNormal s) {e : Expr Dice}
    (hDerives : Expr.Derives .sum s e) (n : Value) : e ≠ .num n := by
  rintro rfl
  obtain ⟨p, ⟨before, after, hBefore, hAfter, hText⟩, m, hNumeral, -⟩ :=
    hDerives.exists_numeral
  have hDigits : ∀ c ∈ p, c.isDigit = true := hNumeral.isDigit
  have hBlank : ∀ c ∈ p, isBlank c = false := fun c hc =>
    isBlank_of_isDigit (hDigits c hc)
  have hEq : s = p := by
    calc s = trim s := (trim_eq_self h.head h.last).symm
      _ = trim p := by
        rw [hText, trim_append_right hAfter, trim_append_left hBefore]
      _ = p := trim_eq_self (fun c hc => hBlank c (List.mem_of_mem_head? hc))
        fun c hc => hBlank c (List.mem_of_mem_getLast? hc)
  -- A numeral is all digits, so completion would have put a count in front.
  have hNot := (complete_eq_self_iff.1 h.complete).1
  rw [hEq, List.all_eq_true.2 hDigits] at hNot
  cases hNot

/-- No formula denotes a bare number. -/
theorem expr_ne_num {text : String} {formula : Formula}
    (h : read text = .ok formula) (n : Value) : formula.expr ≠ .num n := by
  obtain ⟨hNormal, hExpr⟩ := read_eq_ok_iff.1 h
  have hForm := isNormal_of_normalize hNormal
  rw [Expr.read?_eq_some_iff, lowercase_eq_self hForm.lowercase] at hExpr
  exact hForm.ne_num hExpr n

/-! ## Reading canonical notations -/

/-- The canonical notation of an expression that is not a bare number is its own
normal form, up to capital letters. -/
theorem normalize_canonical {e : Expr Dice} (hFlat : e.Flat)
    (hWritable : e.Writable) (hNum : ∀ n, e ≠ .num n)
    (hLength : e.canonical.length ≤ maxLength) :
    normalize e.canonical =
      .ok (String.ofList (lowercase e.canonical.toList)) := by
  obtain ⟨c, t, hText, hOpening⟩ := e.startsIn_canonical
  obtain ⟨hBlank, hLowercase, hLetter⟩ := hOpening.plain
  have hHead : ∀ d ∈ e.canonical.toList.head?, isBlank d = false := by
    rw [hText]
    rintro _ ⟨⟩
    exact hBlank
  have hBare : bare e.canonical = e.canonical.toList :=
    bare_eq_self Expr.unquoted_canonical hHead e.endsIn_canonical.getLast?
  have hComplete : complete (lowercase e.canonical.toList) =
      lowercase e.canonical.toList := by
    refine complete_eq_self_iff.2 ⟨?_, ?_⟩
    · have hRead := Expr.read?_canonical hFlat hWritable
      obtain ⟨d, hd, hDigit⟩ :=
        (Expr.read?_eq_some_iff.1 hRead).exists_not_digit hNum
      exact List.all_eq_false.2 ⟨d, hd, by simp [hDigit]⟩
    · rw [Expr.lowercase_canonical, hText, List.map_cons, hLowercase]
      exact fun _ _ hEq => absurd (List.cons.inj hEq).1 hLetter
  have hEmpty : e.canonical.toList.isEmpty = false := by
    rw [hText]
    rfl
  have hShort : ¬ maxLength < e.canonical.toList.length := by
    rw [String.length_toList]
    omega
  simp only [normalize, hBare, hEmpty, if_neg hShort, hComplete]
  rfl

/-- The canonical notation of a formula denotes what the formula does. -/
theorem read_canonical {text : String} {formula : Formula}
    (h : read text = .ok formula)
    (hLength : formula.expr.canonical.length ≤ maxLength) :
    ∃ formula', read formula.expr.canonical = .ok formula' ∧
      formula'.expr = formula.expr := by
  have hDerives := Expr.read?_eq_some_iff.1 (read_eq_ok_iff.1 h).2
  let normalForm := String.ofList (lowercase formula.expr.canonical.toList)
  refine ⟨⟨normalForm, formula.expr⟩, read_eq_ok_iff.2 ⟨?_, ?_⟩, rfl⟩
  · exact normalize_canonical hDerives.flat hDerives.writable (expr_ne_num h)
      hLength
  · rw [Expr.read?_eq_some_iff, String.toList_ofList, lowercase_lowercase,
      ← Expr.read?_eq_some_iff]
    exact Expr.read?_canonical hDerives.flat hDerives.writable

/-! ## Rolling canonical notations -/

variable {σ : Type}

/-- What an outcome tells of a roll: the total and the breakdown in both of its
forms. -/
def Outcome.told (outcome : Outcome) : Value × String × List String :=
  (outcome.total, outcome.rolls, outcome.groups)

/-- What a roll comes to depends on the expression, and not on the text it was
read from. -/
theorem run_rollRead_congr {formula formula' : Formula}
    (h : formula.expr = formula'.expr) (roller : Roller σ) (table : Table σ) :
    ((rollRead formula).run roller table).2.Matches
        ((rollRead formula').run roller table).2 ∧
      ((rollRead formula).run roller table).1.map (Except.map Outcome.told) =
        ((rollRead formula').run roller table).1.map
          (Except.map Outcome.told) := by
  rw [run_rollRead, run_rollRead, h,
    Expr.run_evaluate_eq _ _ (table.noted (.rolling formula.text _)),
    Expr.run_evaluate_eq _ _ (table.noted (.rolling formula'.text _))]
  have hState : ∀ record, (table.noted record).state = table.state := fun _ => rfl
  rw [hState, hState]
  rcases formula'.expr.evaluate.run roller (.new table.state) with
    ⟨halt | cause | evaluated, alone⟩
  · exact ⟨⟨rfl, rfl⟩, rfl⟩
  · exact ⟨⟨rfl, rfl⟩, rfl⟩
  · dsimp only
    cases Evaluated.calculate evaluated with
    | error cause => exact ⟨⟨rfl, rfl⟩, rfl⟩
    | ok total => exact ⟨⟨rfl, rfl⟩, rfl⟩

/-- The canonical notation of a valid formula can stand in for it. A valid
formula denotes an expression that is not a bare number. If the canonical
notation of that expression has no more characters than a formula may have, then
with every roller rolling it makes the draws that rolling the formula makes, and
comes to the same total and breakdown, or to the same error. -/
theorem canonical_stands_in {text : String} (h : isValid text = true) :
    ∃ formula, read text = .ok formula ∧ (∀ n, formula.expr ≠ .num n) ∧
      (formula.expr.canonical.length ≤ maxLength →
        ∀ {σ : Type} (roller : Roller σ) (table : Table σ),
          ((roll formula.expr.canonical).run roller table).2.Matches
              ((roll text).run roller table).2 ∧
            ((roll formula.expr.canonical).run roller table).1.map
                (Except.map Outcome.told) =
              ((roll text).run roller table).1.map
                (Except.map Outcome.told)) := by
  obtain ⟨formula, hRead⟩ := isValid_iff.1 h
  refine ⟨formula, hRead, expr_ne_num hRead, fun hLength σ roller table => ?_⟩
  obtain ⟨formula', hCanonical, hExpr⟩ := read_canonical hRead hLength
  rw [run_roll_of_ok hCanonical, run_roll_of_ok hRead,
    warnings_of_read hCanonical, warnings_of_read hRead]
  exact run_rollRead_congr hExpr roller _

/-- Fate dice in parentheses, times a negative number. -/
def fateFormula : Formula :=
  ⟨"(4df) * -2", .binary .mul (.group (.dice ⟨4, .fate, []⟩)) (.neg (.num 2))⟩

/-- What is typed as `(4DF) * -2` has the canonical notation `(4dF) * -2`, and
with a roller that always gives one both are rolled alike. -/
theorem canonical_stands_in_fate :
    isValid "(4DF) * -2" = true ∧ read "(4DF) * -2" = .ok fateFormula ∧
      fateFormula.expr.canonical.length ≤ maxLength ∧
      ((roll "(4dF) * -2").run Roller.constant (.new 1)).2.Matches
        ((roll "(4DF) * -2").run Roller.constant (.new 1)).2 ∧
      ((roll "(4dF) * -2").run Roller.constant (.new 1)).1.map
          (Except.map Outcome.told) =
        ((roll "(4DF) * -2").run Roller.constant (.new 1)).1.map
          (Except.map Outcome.told) := by
  have hRead : read "(4DF) * -2" = .ok fateFormula := by
    decide +kernel
  have hValid : isValid "(4DF) * -2" = true := isValid_iff.2 ⟨_, hRead⟩
  have hCanonical : fateFormula.expr.canonical = "(4dF) * -2" := by
    decide +kernel
  have hLength : fateFormula.expr.canonical.length ≤ maxLength := by
    rw [hCanonical]
    decide
  obtain ⟨formula, hFormula, -, hRolls⟩ := canonical_stands_in hValid
  have hSame : formula = fateFormula :=
    Except.ok.inj (hFormula.symm.trans hRead)
  subst hSame
  have hAlike := hRolls hLength Roller.constant (.new 1)
  rw [hCanonical] at hAlike
  exact ⟨hValid, hRead, hLength, hAlike⟩

end Formula

end DiceFormula
