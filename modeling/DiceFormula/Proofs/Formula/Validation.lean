import DiceFormula.Proofs.Formula.NormalForm
import DiceFormula.Proofs.Formula.Roll

/-!
# What a validation reports

A validation says no more than whether a text stands for a formula, and puts the
reason into the log if it does not, as something for those who look for it. But it
reads the text as a roll does, and what reading reports comes first: a formula that is
too long is warned about here, too.

## Main results

* `records_validate_of_error` — what is reported about a text that is refused.
* `validate_warns_iff` — the texts whose validation reports nothing that matters more,
  and the warnings about all others.
* `validate_warns` — a text of digits that is warned about.
-/

namespace DiceFormula

namespace Formula

open Text

/-! ## Warnings -/

/-- A text that is not too long is not warned about. -/
theorem warnings_of_le {text : String} (h : (bare text).length ≤ maxLength) :
    warnings text = [] := by
  cases hNormal : normalize text with
  | ok normalForm => exact warnings_of_normalize hNormal
  | error cause =>
      cases cause with
      | empty => simp only [warnings, hNormal]
      | unreadable => exact absurd hNormal (normalize_ne_unreadable text)
      | tooLong n =>
          obtain ⟨hLong, -⟩ := normalize_eq_tooLong_iff.1 hNormal
          exact absurd h (Nat.not_le_of_lt hLong)

/-- A text that is too long is warned about once. -/
theorem warnings_of_lt {text : String} (h : maxLength < (bare text).length) :
    warnings text = [.tooLong (bare text).length (String.ofList (bare text))] := by
  have hNormal := normalize_eq_tooLong_iff.2 ⟨h, rfl⟩
  simp only [warnings, hNormal]

/-! ## The records of a validation -/

theorem records_validate_of_error {text : String} {cause : InputError}
    (h : read text = .error cause) :
    (validate text).records = warnings text ++ [.invalid text cause] := by
  simp [validate, h, records_readLogged]

/-- Besides the warnings of reading there is at most the reason of a refusal. -/
theorem records_validate (text : String) :
    ∃ reasons, (validate text).records = warnings text ++ reasons ∧
      ∀ record ∈ reasons, record.level = .debug := by
  cases hRead : read text with
  | ok formula =>
      refine ⟨[], ?_, by simp⟩
      rw [records_validate_of_ok hRead, List.append_nil]
  | error cause =>
      refine ⟨_, records_validate_of_error hRead, ?_⟩
      rintro record hRecord
      rw [List.mem_singleton.1 hRecord]
      rfl

/-- A formula that is too long leaves a warning when it is validated. -/
theorem not_quiet_of_lt {text : String} (h : maxLength < (bare text).length) :
    ¬ ∀ record ∈ (validate text).records,
      record.level = .debug ∨ record.level = .trace := by
  intro hQuiet
  obtain ⟨reasons, hRecords, -⟩ := records_validate text
  have hMem : .tooLong (bare text).length (String.ofList (bare text)) ∈
      (validate text).records := by
    rw [hRecords, warnings_of_lt h]
    exact List.mem_append_left _ (List.mem_singleton_self _)
  rcases hQuiet _ hMem with hLevel | hLevel
  · cases hLevel
  · cases hLevel

/-- Let `u` be what is left of a text without its quotes and then without the blanks
around it. A validation reports nothing above the level of debugging if and only if
`u` has no more characters than a formula may have; otherwise there is one warning
among its records, and it tells the length. -/
theorem validate_warns_iff (text : String) :
    let u := trim (text.toList.filter fun c => !isQuote c)
    ((∀ record ∈ (validate text).records,
        record.level = .debug ∨ record.level = .trace) ↔ u.length ≤ 100) ∧
    (validate text).records.filter (fun record => record.level == .warn) =
      if u.length ≤ 100 then [] else [.tooLong u.length (String.ofList u)] := by
  change (_ ↔ (bare text).length ≤ maxLength) ∧
    _ = if (bare text).length ≤ maxLength then [] else _
  obtain ⟨reasons, hRecords, hDebug⟩ := records_validate text
  have hReasons : reasons.filter (fun record => record.level == .warn) = [] := by
    refine List.filter_eq_nil_iff.2 fun record hRecord => ?_
    rw [hDebug record hRecord]
    decide
  rcases Nat.lt_or_ge maxLength (bare text).length with hLong | hFits
  · have hNot := Nat.not_le_of_lt hLong
    refine ⟨iff_of_false (not_quiet_of_lt hLong) hNot, ?_⟩
    rw [if_neg hNot, hRecords, warnings_of_lt hLong, List.filter_append, hReasons]
    rfl
  · rw [hRecords, warnings_of_le hFits, List.nil_append]
    refine ⟨iff_of_true (fun record hRecord => ?_) hFits, ?_⟩
    · exact .inl (hDebug record hRecord)
    · rw [if_pos hFits, hReasons]

/-- A hundred and one sevens are too long for a formula. -/
theorem validate_warns :
    ¬ ∀ record ∈ (validate (String.ofList (List.replicate 101 '7'))).records,
      record.level = .debug ∨ record.level = .trace := by
  refine not_quiet_of_lt ?_
  rw [bare, String.toList_ofList]
  decide

end Formula

end DiceFormula
