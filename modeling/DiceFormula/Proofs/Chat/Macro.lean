import DiceFormula.Chat
import DiceFormula.Proofs.Formula.NormalForm
import DiceFormula.Proofs.Formula.Roll
import DiceFormula.Proofs.Notation.RoundTrip

/-!
# The macro and the roll

The macro brings a formula into its normal form and then validates and rolls
the normal form, for which both bring it into its normal form once more. The
second round changes nothing but for one case: where the count of a die was
added, the normal form is longer than the formula, and if it is longer than a
formula may be, the macro refuses what a roll accepts.

## Main results

* `run_macroReply` — the run of the macro as one equation.
* `run_macroReply_eq` — where the normal form is not too long the macro and the
  roll are the same run, and the macro answers what the roll came to.
* `macroReply_agrees_iff` — the macro agrees with the roll on every formula but
  those whose normal form has become too long.
* `macroReply_disagrees` — such a formula.
-/

namespace DiceFormula

variable {σ : Type}

namespace Formula

/-- A normal form is read as the formula it is the normal form of, unless it
is too long. -/
theorem read_normalForm {text normalForm : String}
    (h : normalize text = .ok normalForm) (hLength : normalForm.length ≤ maxLength) :
    read normalForm = read text := by
  rw [read_eq_of_normalize h, read_eq_of_normalize (normalize_of_le h hLength)]

/-- The formula is accepted, but its normal form has more characters than a
formula may have. -/
def Outgrown (text : String) : Prop :=
  ∃ normalForm, normalize text = .ok normalForm ∧ isValid text = true ∧
    maxLength < normalForm.length

/-- A roll whose formula was read is not refused any more. -/
theorem run_rollRead_ne_refused (formula : Formula) (roller : Roller σ)
    (table after : Table σ) (cause : InputError) :
    (rollRead formula).run roller table ≠
      (.ok (.error (.refused cause)), after) := by
  rw [run_rollRead]
  rcases formula.expr.evaluate.run roller _ with ⟨halt | cause | evaluated, last⟩
  · exact nofun
  · exact nofun
  · cases hTotal : Evaluated.calculate evaluated with
    | error cause => simp only [hTotal]; exact nofun
    | ok total => simp only [hTotal]; exact nofun

end Formula

namespace Chat

open Formula

/-! ## Runs of the macro -/

/-- The text for a formula that fails while it is rolled. -/
def failedMacroReply (formula : String) : String :=
  "[Error: Failed to roll " ++ formula ++ "]"

/-- The run of the macro, with the steps that only write to the log put
together. -/
theorem run_macroReply (text : String) (roller : Roller σ) (table : Table σ) :
    macroReply text roller table =
      match normalize text with
      | .error .empty =>
        (.ok "[Error: Empty dice formula]", table.logged (warnings text))
      | .error _ =>
        (.ok (invalidMacroReply (Text.trimmed text)),
          table.logged (warnings text))
      | .ok normalForm =>
        let checked := table.logged (validate normalForm).records
        if isValid normalForm then
          match (roll normalForm).run roller checked with
          | (.error halt, after) => (.error halt, after)
          | (.ok (.error _), after) => (.ok (failedMacroReply normalForm), after)
          | (.ok (.ok outcome), after) => (.ok outcome.text, after)
        else
          (.ok (invalidMacroReply normalForm),
            checked.noted (.invalidMacro normalForm)) := by
  have hNormalize : (normalizeLogged text).value = normalize text := rfl
  have hRecords : (normalizeLogged text).records = warnings text := by
    simp [normalizeLogged]
  unfold macroReply
  rw [Rolling.bind_apply, Rolling.run_ofLogged, hNormalize, hRecords]
  cases h : normalize text with
  | error cause => cases cause <;> rfl
  | ok normalForm =>
      rw [warnings_of_normalize h, Table.logged_nil]
      simp only [Rolling.bind_apply, Rolling.run_ofLogged, value_validate]
      cases isValid normalForm with
      | false => rfl
      | true =>
          simp only [if_true, Rolling.bind_apply]
          rcases (roll normalForm).run roller _ with
            ⟨halt | cause | outcome, after⟩ <;> rfl

/-- A normal form that is not read is shown in the reply. -/
theorem run_macroReply_of_invalid {text normalForm : String}
    (h : normalize text = .ok normalForm)
    (hInvalid : isValid normalForm = false) (roller : Roller σ)
    (table : Table σ) :
    macroReply text roller table =
      (.ok (invalidMacroReply normalForm),
        (table.logged (validate normalForm).records).noted
          (.invalidMacro normalForm)) := by
  rw [run_macroReply, h]
  simp only [hInvalid, Bool.false_eq_true, if_false]

/-- Where the normal form is not too long, the macro is the roll, with the
result put into words. -/
theorem run_macroReply_eq {text normalForm : String}
    (h : normalize text = .ok normalForm) (hValid : isValid text = true)
    (hLength : normalForm.length ≤ maxLength) (roller : Roller σ)
    (table : Table σ) :
    macroReply text roller table =
      match (roll text).run roller table with
      | (.error halt, after) => (.error halt, after)
      | (.ok (.error _), after) => (.ok (failedMacroReply normalForm), after)
      | (.ok (.ok outcome), after) => (.ok outcome.text, after) := by
  obtain ⟨formula, hFormula⟩ := isValid_iff.1 hValid
  have hFormula' : read normalForm = .ok formula := by
    rw [read_normalForm h hLength, hFormula]
  have hValid' : isValid normalForm = true := isValid_iff.2 ⟨formula, hFormula'⟩
  have hWarnings : warnings normalForm = [] :=
    warnings_of_normalize (normalize_of_le h hLength)
  have hRoll : (roll normalForm).run roller table =
      (roll text).run roller table := by
    rw [run_roll_of_ok hFormula', run_roll_of_ok hFormula, hWarnings,
      warnings_of_normalize h]
  rw [run_macroReply, h]
  simp only [hValid', records_validate_of_ok hFormula', hWarnings,
    Table.logged_nil, if_true]
  rw [hRoll]

/-! ## Telling the replies apart -/

/-- The replies for errors differ in the first letter after the colon. -/
def errorInitial (reply : String) : Option Char := reply.toList[8]?

theorem toList_invalidMacroReply (shown : String) :
    (invalidMacroReply shown).toList =
      "[Error: Invalid formula \x22".toList ++
        (shown.toList ++ "\x22]".toList) := by
  show ("[Error: Invalid formula \x22" ++ shown ++ "\x22]").toList = _
  simp only [String.toList_append, List.append_assoc]

theorem toList_failedMacroReply (shown : String) :
    (failedMacroReply shown).toList =
      "[Error: Failed to roll ".toList ++ (shown.toList ++ "]".toList) := by
  show ("[Error: Failed to roll " ++ shown ++ "]").toList = _
  simp only [String.toList_append, List.append_assoc]

theorem errorInitial_invalid (shown : String) :
    errorInitial (invalidMacroReply shown) = some 'I' := by
  rw [errorInitial, toList_invalidMacroReply,
    List.getElem?_append_left (by decide)]
  decide

theorem errorInitial_failed (shown : String) :
    errorInitial (failedMacroReply shown) = some 'F' := by
  rw [errorInitial, toList_failedMacroReply,
    List.getElem?_append_left (by decide)]
  decide

theorem errorInitial_empty :
    errorInitial "[Error: Empty dice formula]" = some 'E' := rfl

theorem ne_of_errorInitial_ne {reply reply' : String}
    (h : errorInitial reply ≠ errorInitial reply') : reply ≠ reply' := by
  intro hEq
  exact h (congrArg errorInitial hEq)

theorem invalid_ne_empty (shown : String) :
    invalidMacroReply shown ≠ "[Error: Empty dice formula]" := by
  apply ne_of_errorInitial_ne
  rw [errorInitial_invalid, errorInitial_empty]
  decide

theorem failed_ne_empty (shown : String) :
    failedMacroReply shown ≠ "[Error: Empty dice formula]" := by
  apply ne_of_errorInitial_ne
  rw [errorInitial_failed, errorInitial_empty]
  decide

theorem invalid_ne_failed (shown shown' : String) :
    invalidMacroReply shown ≠ failedMacroReply shown' := by
  apply ne_of_errorInitial_ne
  rw [errorInitial_invalid, errorInitial_failed]
  decide

/-- The text of an outcome starts with a digit or a sign, so it is none of the
replies in brackets. -/
theorem text_ne_of_head? {outcome : Outcome} {reply : String}
    (h : reply.toList.head? = some '[') : outcome.text ≠ reply := by
  rintro rfl
  have hNonempty := Value.text_toList_ne_nil outcome.total
  rw [Outcome.text, String.toList_append, String.toList_append,
    String.toList_append, List.append_assoc, List.append_assoc,
    List.head?_append_of_ne_nil _ hNonempty] at h
  exact absurd (Value.mem_text (List.mem_of_mem_head? h)) (by decide)

theorem text_ne_invalid (outcome : Outcome) (shown : String) :
    outcome.text ≠ invalidMacroReply shown := by
  apply text_ne_of_head?
  rw [toList_invalidMacroReply, List.head?_append_of_ne_nil _ (by decide)]
  decide

theorem text_ne_failed (outcome : Outcome) (shown : String) :
    outcome.text ≠ failedMacroReply shown := by
  apply text_ne_of_head?
  rw [toList_failedMacroReply, List.head?_append_of_ne_nil _ (by decide)]
  decide

theorem text_ne_empty (outcome : Outcome) :
    outcome.text ≠ "[Error: Empty dice formula]" :=
  text_ne_of_head? rfl

/-! ## Agreement -/

/-- The answer of the macro tells what a roll came to: the total and the
breakdown if it succeeded, and otherwise which kind of error it was. -/
structure Tells (result : Except Halt (Except Formula.Error Outcome))
    (answer : Except Halt String) : Prop where
  succeeded : ∀ outcome, result = .ok (.ok outcome) →
    answer = .ok outcome.text
  empty : answer = .ok "[Error: Empty dice formula]" ↔
    result = .ok (.error (.refused .empty))
  invalid : (∃ shown, answer = .ok (invalidMacroReply shown)) ↔
    ∃ cause, cause ≠ .empty ∧ result = .ok (.error (.refused cause))
  failed : (∃ shown, answer = .ok (failedMacroReply shown)) ↔
    ∃ err : Formula.Error, err.isInvalidFormula = false ∧
      result = .ok (.error err)
  halted : ∀ halt, answer = .error halt ↔ result = .error halt

theorem Tells.halt (halt : Halt) : Tells (.error halt) (.error halt) where
  succeeded := nofun
  empty := iff_of_false nofun nofun
  invalid := iff_of_false nofun nofun
  failed := iff_of_false nofun nofun
  halted _ := by simp

theorem Tells.outcome (outcome : Outcome) :
    Tells (.ok (.ok outcome)) (.ok outcome.text) where
  succeeded := by rintro _ ⟨⟩; rfl
  empty := iff_of_false (by simp [text_ne_empty]) nofun
  invalid := iff_of_false (by simp [text_ne_invalid]) nofun
  failed := iff_of_false (by simp [text_ne_failed]) nofun
  halted _ := iff_of_false nofun nofun

theorem Tells.refused_empty :
    Tells (.ok (.error (.refused .empty)))
      (.ok "[Error: Empty dice formula]") where
  succeeded := nofun
  empty := iff_of_true rfl rfl
  invalid := by
    refine iff_of_false ?_ ?_
    · rintro ⟨shown, h⟩
      exact invalid_ne_empty shown (Except.ok.inj h).symm
    · rintro ⟨cause, hCause, ⟨⟩⟩
      exact hCause rfl
  failed := by
    refine iff_of_false ?_ ?_
    · rintro ⟨shown, h⟩
      exact failed_ne_empty shown (Except.ok.inj h).symm
    · rintro ⟨err, hErr, ⟨⟩⟩
      cases hErr
  halted _ := iff_of_false nofun nofun

theorem Tells.refused {cause : InputError} (h : cause ≠ .empty)
    (shown : String) :
    Tells (.ok (.error (.refused cause))) (.ok (invalidMacroReply shown)) where
  succeeded := nofun
  empty := by
    refine iff_of_false ?_ ?_
    · exact fun hEq => invalid_ne_empty shown (Except.ok.inj hEq)
    · rintro ⟨⟩
      exact h rfl
  invalid := iff_of_true ⟨shown, rfl⟩ ⟨cause, h, rfl⟩
  failed := by
    refine iff_of_false ?_ ?_
    · rintro ⟨shown', hEq⟩
      exact invalid_ne_failed shown shown' (Except.ok.inj hEq)
    · rintro ⟨err, hErr, ⟨⟩⟩
      cases hErr
  halted _ := iff_of_false nofun nofun

theorem Tells.failure {err : Formula.Error} (h : err.isInvalidFormula = false)
    (shown : String) :
    Tells (.ok (.error err)) (.ok (failedMacroReply shown)) where
  succeeded := nofun
  empty := by
    refine iff_of_false ?_ ?_
    · exact fun hEq => failed_ne_empty shown (Except.ok.inj hEq)
    · rintro ⟨⟩
      cases h
  invalid := by
    refine iff_of_false ?_ ?_
    · rintro ⟨shown', hEq⟩
      exact invalid_ne_failed shown' shown (Except.ok.inj hEq).symm
    · rintro ⟨cause, -, ⟨⟩⟩
      cases h
  failed := iff_of_true ⟨shown, rfl⟩ ⟨err, h, rfl⟩
  halted _ := iff_of_false nofun nofun

/-- The macro draws what a roll draws, and tells what it came to. -/
structure MacroAgrees (text : String) (roller : Roller σ) (table : Table σ) :
    Prop where
  draws : (macroReply text roller table).2.draws =
    ((roll text).run roller table).2.draws
  state : (macroReply text roller table).2.state =
    ((roll text).run roller table).2.state
  tells : Tells ((roll text).run roller table).1 (macroReply text roller table).1

theorem agrees_of_normalize_error {text : String} {cause : InputError}
    (h : normalize text = .error cause) (roller : Roller σ) (table : Table σ) :
    MacroAgrees text roller table := by
  have hRoll := run_roll_of_error (read_eq_error h) roller table
  cases cause with
  | empty =>
      have hMacro := run_macroReply text roller table
      rw [h] at hMacro
      refine ⟨by rw [hRoll, hMacro], by rw [hRoll, hMacro], ?_⟩
      rw [hRoll, hMacro]
      exact .refused_empty
  | tooLong length =>
      have hMacro := run_macroReply text roller table
      rw [h] at hMacro
      refine ⟨by rw [hRoll, hMacro], by rw [hRoll, hMacro], ?_⟩
      rw [hRoll, hMacro]
      exact .refused (by simp) _
  | unreadable => exact absurd h (normalize_ne_unreadable text)

theorem agrees_of_unreadable {text normalForm : String}
    (h : normalize text = .ok normalForm) (hInvalid : isValid text = false)
    (roller : Roller σ) (table : Table σ) : MacroAgrees text roller table := by
  have hRead : read text = .error .unreadable := by
    have hNot : ¬ ∃ formula, read text = .ok formula := by
      rw [← isValid_iff, hInvalid]
      exact nofun
    rw [read_eq_of_normalize h, ofNormalForm] at hNot ⊢
    cases hExpr : Expr.read? normalForm with
    | none => rfl
    | some expr =>
        rw [hExpr] at hNot
        exact absurd ⟨_, rfl⟩ hNot
  have hInvalid' : isValid normalForm = false := by
    by_cases hLength : normalForm.length ≤ maxLength
    · rw [isValid, read_normalForm h hLength, hRead]
      rfl
    · rw [isValid, read_eq_error (normalize_of_lt h (by omega))]
      rfl
  have hRoll := run_roll_of_error hRead roller table
  have hMacro := run_macroReply_of_invalid h hInvalid' roller table
  refine ⟨by rw [hRoll, hMacro]; rfl, by rw [hRoll, hMacro]; rfl, ?_⟩
  rw [hRoll, hMacro]
  exact .refused (by simp) normalForm

theorem agrees_of_fitting {text normalForm : String}
    (h : normalize text = .ok normalForm) (hValid : isValid text = true)
    (hLength : normalForm.length ≤ maxLength) (roller : Roller σ)
    (table : Table σ) : MacroAgrees text roller table := by
  have hMacro := run_macroReply_eq h hValid hLength roller table
  obtain ⟨formula, hFormula⟩ := isValid_iff.1 hValid
  have hNotRefused : ∀ cause after, (roll text).run roller table ≠
      (.ok (.error (.refused cause)), after) := by
    intro cause after hRoll
    rw [run_roll_of_ok hFormula] at hRoll
    exact run_rollRead_ne_refused formula roller _ after cause hRoll
  rcases hRoll : (roll text).run roller table with
    ⟨halt | err | outcome, after⟩
  · rw [hRoll] at hMacro
    refine ⟨by rw [hRoll, hMacro], by rw [hRoll, hMacro], ?_⟩
    rw [hRoll, hMacro]
    exact .halt halt
  · have hErr : err.isInvalidFormula = false := by
      cases err with
      | refused cause => exact absurd hRoll (hNotRefused cause after)
      | evaluation => rfl
      | calculation => rfl
    rw [hRoll] at hMacro
    refine ⟨by rw [hRoll, hMacro], by rw [hRoll, hMacro], ?_⟩
    rw [hRoll, hMacro]
    exact .failure hErr normalForm
  · rw [hRoll] at hMacro
    refine ⟨by rw [hRoll, hMacro], by rw [hRoll, hMacro], ?_⟩
    rw [hRoll, hMacro]
    exact .outcome outcome

/-- The reply to a formula whose normal form has become too long is that it is
invalid, and that is not what the roll says. -/
theorem not_agrees_of_outgrown {text : String} (h : Outgrown text)
    (roller : Roller σ) (table : Table σ) : ¬ MacroAgrees text roller table := by
  obtain ⟨normalForm, hNormal, hValid, hLength⟩ := h
  obtain ⟨formula, hFormula⟩ := isValid_iff.1 hValid
  have hInvalid : isValid normalForm = false := by
    rw [isValid, read_eq_error (normalize_of_lt hNormal hLength)]
    rfl
  have hMacro := run_macroReply_of_invalid hNormal hInvalid roller table
  intro hAgrees
  have hTells := hAgrees.tells
  rw [hMacro] at hTells
  obtain ⟨cause, -, hResult⟩ := hTells.invalid.1 ⟨normalForm, rfl⟩
  rw [run_roll_of_ok hFormula] at hResult
  exact run_rollRead_ne_refused formula roller _ _ cause (Prod.ext hResult rfl)

/-- The macro agrees with the roll on every formula and with every roller,
except for the formulas whose normal form has become too long: those it calls
invalid, though they can be rolled. -/
theorem macroReply_agrees_iff (text : String) (roller : Roller σ)
    (table : Table σ) :
    MacroAgrees text roller table ↔ ¬ Outgrown text := by
  constructor
  · intro hAgrees hOutgrown
    exact not_agrees_of_outgrown hOutgrown roller table hAgrees
  · intro hFits
    cases hNormal : normalize text with
    | error cause => exact agrees_of_normalize_error hNormal roller table
    | ok normalForm =>
        cases hValid : isValid text with
        | false => exact agrees_of_unreadable hNormal hValid roller table
        | true =>
            have hLength : normalForm.length ≤ maxLength := by
              by_contra hLong
              exact hFits ⟨normalForm, hNormal, hValid, by omega⟩
            exact agrees_of_fitting hNormal hValid hLength roller table

/-- A percentile die, written with its number, and ones added to it. -/
def withOnes : (n : Nat) → Expr Dice
  | 0 => .dice ⟨1, .numbered 100, []⟩
  | n + 1 => .binary .add (withOnes n) (.num 1)

/-- As many ones as still fit, added to a die without a count. -/
def fullFormula : String :=
  "d100" ++ String.join (List.replicate 24 " + 1")

theorem read?_withOnes (n : Nat) :
    Expr.read? (withOnes n).canonical = some (withOnes n) := by
  have hDice : Dice.Writable ⟨1, .numbered 100, []⟩ := by
    refine ⟨by decide, ?_, nofun, nofun, .nil⟩
    rintro _ ⟨⟩
    decide
  have hOne : (0 : Int) ≤ (1 : Value).toInt := by decide
  have hTree : (withOnes n).Flat ∧ (withOnes n).Writable := by
    induction n with
    | zero => exact ⟨trivial, hDice⟩
    | succ n ih =>
        refine ⟨⟨?_, rfl, ih.1, trivial⟩, ih.2, hOne, nofun⟩
        cases n <;> rfl
  exact Expr.read?_canonical hTree.1 hTree.2

/-- The characters of the ones that are added. -/
def ones (n : Nat) : List Char := (List.replicate n [' ', '+', ' ', '1']).flatten

theorem toList_fullFormula : fullFormula.toList = ['d', '1', '0', '0'] ++ ones 24 := by
  rw [fullFormula, String.toList_append, String.toList_join, List.flatMap,
    List.map_replicate]
  rfl

theorem toList_canonical_withOnes (n : Nat) :
    (withOnes n).canonical.toList = ['1', 'd', '1', '0', '0'] ++ ones n := by
  induction n with
  | zero => decide
  | succ n ih =>
      have hText : (withOnes (n + 1)).canonical =
          (withOnes n).canonical ++ " " ++ "+" ++ " " ++ "1" := by
        cases n <;> rfl
      have hOnes : ones (n + 1) = ones n ++ [' ', '+', ' ', '1'] := by
        rw [ones, ones, List.replicate_succ', List.flatten_append]
        rfl
      simp only [hText, hOnes, ih, String.toList_append, List.append_assoc]
      rfl

theorem outgrown_fullFormula : Outgrown fullFormula := by
  have hBare : bare fullFormula = fullFormula.toList := by
    rw [bare, toList_fullFormula]
    decide
  have hSmall : ∀ c ∈ fullFormula.toList,
      c.toNat < 0xC0 ∧ ¬ (65 ≤ c.toNat ∧ c.toNat ≤ 90) := by
    rw [toList_fullFormula]
    decide
  have hLowercase : Text.lowercase fullFormula.toList = fullFormula.toList :=
    Text.lowercase_eq_self fun c hc =>
      Text.isLowercaseChar_of_lt (hSmall c hc).1 (hSmall c hc).2
  have hComplete : complete fullFormula.toList =
      (withOnes 24).canonical.toList := by
    rw [toList_fullFormula, toList_canonical_withOnes]
    rfl
  have hFits : fullFormula.toList.isEmpty = false ∧
      ¬ maxLength < fullFormula.toList.length := by
    rw [toList_fullFormula]
    decide
  have hNormal : normalize fullFormula = .ok (withOnes 24).canonical := by
    simp only [Formula.normalize, hBare, hLowercase, hComplete, hFits.1, hFits.2,
      String.ofList_toList, if_false, Bool.false_eq_true]
  have hLength : maxLength < (withOnes 24).canonical.length := by
    rw [← String.length_toList, toList_canonical_withOnes]
    decide
  refine ⟨_, hNormal, ?_, hLength⟩
  rw [isValid_iff, read_eq_of_normalize hNormal, ofNormalForm, read?_withOnes]
  exact ⟨_, rfl⟩

/-- The formula with as many ones as fit can be rolled, and the macro calls it
invalid. -/
theorem macroReply_disagrees :
    ¬ MacroAgrees fullFormula Roller.constant (Table.new 1) :=
  not_agrees_of_outgrown outgrown_fullFormula _ _

end Chat

end DiceFormula
