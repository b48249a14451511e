import DiceFormula.Formula.Roll
import DiceFormula.Proofs.Rolling

/-!
# Runs of a roll

A roll reads the formula, and throws its dice if that succeeded. The first half
touches nothing but the log, so everything a roll does to the roller and to the
draws it does after the formula has been read, and depends on the text only
through the formula.

## Main results

* `run_roll_of_ok`, `run_roll_of_error` — how a roll goes on after reading.
* `run_rollRead` — how it goes on after the dice have been thrown.
* `exists_evaluated_of_roll` — what a roll that succeeds is made of.
-/

namespace DiceFormula

variable {σ : Type}

namespace Formula

/-! ## Reading -/

theorem records_readLogged (text : String) :
    (readLogged text).records = warnings text := by
  simp [readLogged, normalizeLogged]

/-- A formula is read along its normal form. -/
theorem read_eq_of_normalize {text normalForm : String}
    (h : normalize text = .ok normalForm) :
    read text = ofNormalForm normalForm := by
  show (normalize text).bind ofNormalForm = _
  rw [h]
  rfl

theorem read_eq_error {text : String} {cause : InputError}
    (h : normalize text = .error cause) : read text = .error cause := by
  show (normalize text).bind ofNormalForm = _
  rw [h]
  rfl

/-- A formula is what its text denotes, and this text is a normal form. -/
theorem read_eq_ok_iff {text : String} {formula : Formula} :
    read text = .ok formula ↔
      normalize text = .ok formula.text ∧
        Expr.read? formula.text = some formula.expr := by
  cases hNormal : normalize text with
  | error cause =>
      rw [read_eq_error hNormal]
      exact iff_of_false nofun fun h => nomatch h.1
  | ok normalForm =>
      rw [read_eq_of_normalize hNormal, ofNormalForm, Except.ok.injEq]
      cases hExpr : Expr.read? normalForm with
      | none =>
          refine iff_of_false nofun ?_
          rintro ⟨rfl, hSome⟩
          rw [hExpr] at hSome
          cases hSome
      | some expr =>
          constructor
          · rintro ⟨⟩
            exact ⟨rfl, hExpr⟩
          · rintro ⟨rfl, hSome⟩
            rw [hExpr] at hSome
            cases hSome
            rfl

theorem normalize_ne_unreadable (text : String) :
    normalize text ≠ .error .unreadable := by
  simp only [normalize]
  split
  · exact nofun
  · split
    · exact nofun
    · exact nofun

theorem isValid_iff {text : String} :
    isValid text = true ↔ ∃ formula, read text = .ok formula := by
  unfold isValid
  cases read text with
  | ok formula => exact iff_of_true rfl ⟨formula, rfl⟩
  | error cause => exact iff_of_false nofun nofun

theorem warnings_of_normalize {text normalForm : String}
    (h : normalize text = .ok normalForm) : warnings text = [] := by
  simp only [warnings, h]

theorem warnings_of_read {text : String} {formula : Formula}
    (h : read text = .ok formula) : warnings text = [] := by
  cases hNormal : normalize text with
  | error cause =>
      rw [read_eq_error hNormal] at h
      cases h
  | ok normalForm => exact warnings_of_normalize hNormal

theorem records_validate_of_ok {text : String} {formula : Formula}
    (h : read text = .ok formula) :
    (validate text).records = warnings text := by
  simp [validate, h, records_readLogged]

/-! ## Rolling -/

/-- Rolls a formula that has been read. -/
def rollRead (formula : Formula) : ExceptT Error (Rolling σ) Outcome := do
  ExceptT.lift (Rolling.note (.rolling formula.text formula.expr))
  let evaluated ← ExceptT.adapt Error.evaluation formula.expr.evaluate
  let total ← ExceptT.adapt Error.calculation
    (ExceptT.mk (pure (Evaluated.calculate evaluated)))
  let outcome : Outcome :=
    ⟨total, Evaluated.groups none evaluated, formula.text⟩
  ExceptT.lift (Rolling.note (.rolled formula.text total outcome.rolls))
  return outcome

/-- A roll is a reading and what follows it. -/
theorem run_roll (text : String) (roller : Roller σ) (table : Table σ) :
    (roll text).run roller table =
      (ExceptT.adapt Error.refused (ExceptT.mk (pure (read text))) >>=
        rollRead).run roller (table.logged (warnings text)) := by
  rw [← records_readLogged]
  rfl

theorem run_roll_of_ok {text : String} {formula : Formula}
    (h : read text = .ok formula) (roller : Roller σ) (table : Table σ) :
    (roll text).run roller table =
      (rollRead formula).run roller (table.logged (warnings text)) := by
  rw [run_roll, h]
  rfl

theorem run_roll_of_error {text : String} {cause : InputError}
    (h : read text = .error cause) (roller : Roller σ) (table : Table σ) :
    (roll text).run roller table =
      (.ok (.error (.refused cause)), table.logged (warnings text)) := by
  rw [run_roll, h]
  rfl

/-- What is left to do once the dice lie on the table draws nothing. -/
theorem run_rollRead (formula : Formula) (roller : Roller σ)
    (table : Table σ) :
    (rollRead formula).run roller table =
      match formula.expr.evaluate.run roller
          (table.noted (.rolling formula.text formula.expr)) with
      | (.error halt, after) => (.error halt, after)
      | (.ok (.error cause), after) => (.ok (.error (.evaluation cause)), after)
      | (.ok (.ok evaluated), after) =>
        match Evaluated.calculate evaluated with
        | .error cause => (.ok (.error (.calculation cause)), after)
        | .ok total =>
          let outcome : Outcome :=
            ⟨total, Evaluated.groups none evaluated, formula.text⟩
          (.ok (.ok outcome),
            after.noted (.rolled formula.text total outcome.rolls)) := by
  have hNote : (rollRead formula).run roller table = _ :=
    Rolling.run_adapt_bind Error.evaluation formula.expr.evaluate _ roller
      (table.noted (.rolling formula.text formula.expr))
  rw [hNote]
  rcases formula.expr.evaluate.run roller _ with ⟨halt | cause | evaluated, after⟩
  · rfl
  · rfl
  · refine (Rolling.run_adapt_pure_bind Error.calculation
      (Evaluated.calculate evaluated) _ roller after).trans ?_
    cases hTotal : Evaluated.calculate evaluated with
    | error cause => simp only [hTotal]
    | ok total =>
        simp only [hTotal]
        rfl

/-- A roll that succeeds has read a formula, evaluated its expression and
calculated the total, and lists what was evaluated. -/
theorem exists_evaluated_of_roll {text : String} {roller : Roller σ}
    {table last : Table σ} {outcome : Outcome}
    (h : (roll text).run roller table = (.ok (.ok outcome), last)) :
    ∃ formula evaluated before after, read text = .ok formula ∧
      formula.expr.evaluate.run roller before = (.ok (.ok evaluated), after) ∧
      Evaluated.calculate evaluated = .ok outcome.total ∧
      outcome.groups = Evaluated.groups none evaluated ∧
      outcome.formula = formula.text := by
  cases hRead : read text with
  | error cause =>
      rw [run_roll_of_error hRead] at h
      cases h
  | ok formula =>
      rw [run_roll_of_ok hRead, run_rollRead] at h
      rcases hRun : formula.expr.evaluate.run roller _ with
        ⟨halt | cause | evaluated, after⟩
      · rw [hRun] at h
        cases h
      · rw [hRun] at h
        cases h
      · rw [hRun] at h
        cases hTotal : Evaluated.calculate evaluated with
        | error cause =>
            simp only [hTotal] at h
            cases h
        | ok total =>
            simp only [hTotal] at h
            cases h
            exact ⟨formula, evaluated, _, after, rfl, hRun, hTotal, rfl, rfl⟩

end Formula

end DiceFormula
