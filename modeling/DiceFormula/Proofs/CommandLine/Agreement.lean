import DiceFormula.Proofs.CommandLine.Lines
import DiceFormula.Proofs.Expr.Determinism
import DiceFormula.Proofs.Formula.NormalForm
import DiceFormula.Proofs.Formula.Roll

/-!
# The program and the library

The program goes the whole way from a text to a total by itself, and shows every part
of it on the way: it does not read capital letters, as the library would, it shows the
breakdown before it counts, and it stops where something fails. A text it has brought
into its normal form has no capital letters any more, and so it comes to what a roll of
the text comes to.

Where chance decides, the two have thrown different dice; what is compared here are
texts that are refused and formulas that leave nothing to chance. Of the rollers nothing
else is known than that they answer every interval from inside.

## Main results

* `read_eq_map` — the program reads a text as the library does.
* `exists_ending` — the ways in which a run of the program and a roll end, together.
* `run_agrees_with_roll` — how exit code, output and complaint of the program follow
  from what the roll came to.
-/

namespace DiceFormula.CommandLine

variable {σ τ : Type}

/-! ## Reading -/

/-- A normal form has no capital letters that would have to be made small. -/
theorem readLowercase?_of_normalize {text normalForm : String}
    (h : Formula.normalize text = .ok normalForm) :
    Expr.readLowercase? normalForm = Expr.read? normalForm := by
  rw [Expr.readLowercase?, Expr.read?,
    Text.lowercase_eq_self (Formula.isNormal_of_normalize h).lowercase]

theorem read_eq_map (text : String) : read text = (Formula.read text).map Formula.expr := by
  cases hNormal : Formula.normalize text with
  | error cause =>
      rw [Formula.read_eq_error hNormal, read, hNormal]
      rfl
  | ok normalForm =>
      rw [Formula.read_eq_of_normalize hNormal, Formula.ofNormalForm, read, hNormal,
        ← readLowercase?_of_normalize hNormal]
      change (pure normalForm >>= _) = _
      rw [pure_bind]
      cases Expr.readLowercase? normalForm with
      | none => rfl
      | some e => rfl

/-! ## Runs of the program -/

theorem unlines_cons (line : String) (lines : List String) :
    unlines (line :: lines) = line ++ "\n" ++ unlines lines := by
  rw [unlines, List.map_cons, String.join_cons]
  rfl

section Run

variable {text : String} {formula : Formula} {roller : Roller σ} {table last : Table σ}

/-- Behind the echo of a text that is refused nothing is printed. -/
theorem run_of_refused {cause : Formula.InputError}
    (hRead : Formula.read text = .error cause) (roller : Roller σ) (table : Table σ) :
    run text roller table =
      (.ok ⟨"Input: " ++ text ++ "\n" ++ "", some (.refused cause)⟩, table) := by
  have hNothing : unlines [] = "" := rfl
  rw [run, read_eq_map, hRead, ← hNothing, ← unlines_cons]
  rfl

/-- If the dice of a formula cannot be thrown, it is shown how it was read. -/
theorem run_of_unthrown {err : Expr.EvalError} (hRead : Formula.read text = .ok formula)
    (hRun : formula.expr.evaluate.run roller table = (.ok (.error err), last)) :
    run text roller table =
      (.ok ⟨"Input: " ++ text ++ "\n" ++ unlines (readingLines formula.expr),
        some (.evaluation err)⟩, last) := by
  rw [run, read_eq_map, hRead, ← unlines_cons]
  exact Rolling.bind_eq_of_ok hRun

/-- If a formula has no total, it is shown how it was read and what was thrown. -/
theorem run_of_uncounted {evaluated : Evaluated} {err : Expr.CalcError}
    (hRead : Formula.read text = .ok formula)
    (hRun : formula.expr.evaluate.run roller table = (.ok (.ok evaluated), last))
    (hTotal : Evaluated.calculate evaluated = .error err) :
    run text roller table =
      (.ok ⟨"Input: " ++ text ++ "\n" ++
          unlines (readingLines formula.expr ++ evaluationLines evaluated),
        some (.calculation err)⟩, last) := by
  rw [run, read_eq_map, hRead, ← unlines_cons]
  refine (Rolling.bind_eq_of_ok hRun).trans ?_
  simp only [hTotal]
  rfl

/-- If a formula has a total, this is shown, too. -/
theorem run_of_counted {evaluated : Evaluated} {total : Value}
    (hRead : Formula.read text = .ok formula)
    (hRun : formula.expr.evaluate.run roller table = (.ok (.ok evaluated), last))
    (hTotal : Evaluated.calculate evaluated = .ok total) :
    run text roller table =
      (.ok ⟨"Input: " ++ text ++ "\n" ++
          unlines (readingLines formula.expr ++ evaluationLines evaluated ++
            ["Total: " ++ Value.text total]), none⟩, last) := by
  rw [run, read_eq_map, hRead, ← unlines_cons]
  refine (Rolling.bind_eq_of_ok hRun).trans ?_
  simp only [hTotal]
  rfl

end Run

/-! ## Endings -/

/-- How the program and a roll of a text can end together: what the program prints
behind the echo of the text, why it stops short if it does, and what the roll comes
to. -/
inductive Ending (text : String) :
    (rest : String) → (failure : Option Formula.Error) →
    (result : Except Formula.Error Formula.Outcome) → Prop
  /-- The text is refused. -/
  | refused {cause : Formula.InputError} (hRead : Formula.read text = .error cause) :
      Ending text "" (some (.refused cause)) (.error (.refused cause))
  /-- The dice cannot be thrown. -/
  | unthrown {formula : Formula} {err : Expr.EvalError}
      (hRead : Formula.read text = .ok formula) :
      Ending text (unlines (readingLines formula.expr)) (some (.evaluation err))
        (.error (.evaluation err))
  /-- What the dice show has no total. -/
  | uncounted {formula : Formula} {evaluated : Evaluated} {err : Expr.CalcError}
      (hRead : Formula.read text = .ok formula) :
      Ending text (unlines (readingLines formula.expr ++ evaluationLines evaluated))
        (some (.calculation err)) (.error (.calculation err))
  /-- There is a total. -/
  | counted {formula : Formula} {evaluated : Evaluated} {total : Value}
      (hRead : Formula.read text = .ok formula)
      (hTotal : Evaluated.calculate evaluated = .ok total) :
      Ending text
        (unlines (readingLines formula.expr ++ evaluationLines evaluated ++
          ["Total: " ++ Value.text total]))
        none (.ok ⟨total, Evaluated.groups none evaluated, formula.text⟩)

/-- A text that is refused, or that leaves nothing to chance, ends in the same way in
the program and in the library, whatever rollers that keep their promise they have. -/
theorem exists_ending {text : String} {roller : Roller σ} {roller' : Roller τ}
    (hDeterministic : ∀ formula, Formula.read text = .ok formula →
      formula.expr.isDeterministic = true)
    (hRoller : roller.KeepsPromise) (hRoller' : roller'.KeepsPromise)
    (table : Table σ) (table' : Table τ) :
    ∃ rest failure result last last',
      run text roller table =
        (.ok ⟨"Input: " ++ text ++ "\n" ++ rest, failure⟩, last) ∧
      (Formula.roll text).run roller' table' = (.ok result, last') ∧
      Ending text rest failure result := by
  cases hRead : Formula.read text with
  | error cause =>
      exact ⟨_, _, _, _, _, run_of_refused hRead roller table,
        Formula.run_roll_of_error hRead roller' table', .refused hRead⟩
  | ok formula =>
      -- A roll reports the formula before it throws the dice.
      obtain ⟨evaluation, last, last', -, hRun, hRun', -⟩ :=
        Expr.run_evaluate_alongside (hDeterministic formula hRead) hRoller hRoller' table
          ((table'.logged (Formula.warnings text)).noted
            (.rolling formula.text formula.expr))
      rw [Formula.run_roll_of_ok hRead, Formula.run_rollRead, hRun']
      cases evaluation with
      | error err =>
          exact ⟨_, _, _, _, _, run_of_unthrown hRead hRun, rfl, .unthrown hRead⟩
      | ok evaluated =>
          cases hTotal : Evaluated.calculate evaluated with
          | error err =>
              simp only [hTotal]
              exact ⟨_, _, _, _, _, run_of_uncounted hRead hRun hTotal, rfl,
                .uncounted hRead⟩
          | ok total =>
              simp only [hTotal]
              exact ⟨_, _, _, _, _, run_of_counted hRead hRun hTotal, rfl,
                .counted hRead hTotal⟩

/-! ## The error stream -/

/-- What is told on the error stream. Of a normal form that cannot be read it is told
where that goes wrong, in a `report`. -/
def Transcript.told (report : String) (transcript : Transcript) : String :=
  match transcript.failure with
  | some (.refused .unreadable) => report
  | _ => transcript.complaint

/-- What is told starts as the reply to a roll that has failed does. -/
def TellsFailure (told : String) : Prop := "[Roll failed]: ".toList <+: told.toList

/-- A complaint starts as the reply to its error does. -/
theorem tellsFailure_complaint_iff (output : String) {err : Formula.Error} :
    TellsFailure (Transcript.complaint ⟨output, some err⟩) ↔
      err.isInvalidFormula = false := by
  have hFailed : ∀ message,
      TellsFailure (Formula.failedReply ++ ": " ++ message ++ "\n") := by
    intro message
    rw [TellsFailure, String.append_assoc, String.toList_append]
    exact List.prefix_append _ _
  have hInvalid : ∀ message,
      ¬ TellsFailure (Formula.invalidReply ++ ": " ++ message ++ "\n") := by
    simp [TellsFailure, Formula.invalidReply]
  cases err with
  | refused cause => exact iff_of_false (hInvalid cause.message) nofun
  | evaluation cause => exact iff_of_true (hFailed cause.message) rfl
  | calculation cause => exact iff_of_true (hFailed cause.message) rfl

/-! ## What follows from an ending -/

theorem unlines_cons_ne_empty {line : String} {lines : List String} :
    unlines (line :: lines) ≠ "" := by
  rw [unlines_cons]
  intro hEmpty
  have hText := congrArg String.toList hEmpty
  simp at hText

namespace Ending

variable {text rest output : String} {failure : Option Formula.Error}
  {result : Except Formula.Error Formula.Outcome}

theorem exitCode_eq_zero_iff (h : Ending text rest failure result) :
    Transcript.exitCode ⟨output, failure⟩ = 0 ↔ ∃ outcome, result = .ok outcome := by
  have hFails : ∀ {err}, Transcript.exitCode ⟨output, some err⟩ ≠ 0 :=
    fun h => absurd h (by decide : (1 : UInt32) ≠ 0)
  cases h with
  | refused => exact iff_of_false hFails nofun
  | unthrown => exact iff_of_false hFails nofun
  | uncounted => exact iff_of_false hFails nofun
  | counted => exact iff_of_true rfl ⟨_, rfl⟩

/-- Behind the echo of a text nothing is printed if and only if the text is not
valid. -/
theorem silent_iff (h : Ending text rest failure result) :
    Transcript.exitCode ⟨output, failure⟩ = 1 ∧ rest = "" ↔
      Formula.isValid text = false := by
  have hValid : ∀ {formula}, Formula.read text = .ok formula →
      ¬ Formula.isValid text = false :=
    fun hRead => by simp [Formula.isValid_iff.2 ⟨_, hRead⟩]
  cases h with
  | refused hRead =>
      refine iff_of_true ⟨rfl, rfl⟩ ?_
      rw [Formula.isValid, hRead]
      rfl
  | unthrown hRead =>
      exact iff_of_false (fun h => unlines_cons_ne_empty h.2) (hValid hRead)
  | uncounted hRead =>
      exact iff_of_false (fun h => unlines_cons_ne_empty h.2) (hValid hRead)
  | counted hRead =>
      exact iff_of_false (fun h => unlines_cons_ne_empty h.2) (hValid hRead)

/-- A failure is told as one if and only if the dice could not be thrown or had no
total, and then no line was printed for the total. -/
theorem failed_iff (h : Ending text rest failure result) {report : String}
    (hReport : ¬ TellsFailure report) :
    Transcript.exitCode ⟨output, failure⟩ = 1 ∧
      TellsFailure (Transcript.told report ⟨output, failure⟩) ∧
      (∀ line ∈ rest.toList.splitOn '\n', ¬ "Total: ".toList <+: line) ↔
    (∃ cause, result = .error (.evaluation cause)) ∨
      ∃ cause, result = .error (.calculation cause) := by
  cases h with
  | @refused cause hRead =>
      refine iff_of_false (fun hFailed => ?_) (by simp)
      have hTold := hFailed.2.1
      cases cause with
      | unreadable => exact hReport hTold
      | empty => cases (tellsFailure_complaint_iff output).1 hTold
      | tooLong n => cases (tellsFailure_complaint_iff output).1 hTold
  | @unthrown formula err hRead =>
      refine iff_of_true ⟨rfl, (tellsFailure_complaint_iff output).2 rfl, ?_⟩
        (.inl ⟨err, rfl⟩)
      exact not_total_of_isPlain (isPlain_readingLines formula.expr)
  | @uncounted formula evaluated err hRead =>
      refine iff_of_true ⟨rfl, (tellsFailure_complaint_iff output).2 rfl, ?_⟩
        (.inr ⟨err, rfl⟩)
      exact not_total_of_isPlain (List.forall_mem_append.2
        ⟨isPlain_readingLines formula.expr, isPlain_evaluationLines evaluated⟩)
  | counted hRead =>
      refine iff_of_false (fun hFailed => ?_) (by simp)
      exact absurd hFailed.1 (by decide : (0 : UInt32) ≠ 1)

end Ending

/-- For every text the program is asked for, by its arguments or by the first line of
its input, that is refused or leaves nothing to chance: the program and a roll of the
text, with any two rollers that answer every interval from inside, both come to an end.
The program exits with success if and only if the roll has a total, and has then printed
behind the echo of the text the expression that was read, its notation, that it is
deterministic, what its dice show, the breakdown of the roll and its total. It fails
without having printed anything more if and only if the text is not valid. And if and
only if the roll fails while the dice are thrown or counted the program fails and says
so, and prints no line for a total; of what is told about a text that cannot be read it
is only known that it does not say so. -/
theorem run_agrees_with_roll {arguments : List String} {input text : String}
    (report : String) {roller : Roller σ} {roller' : Roller τ} (table : Table σ)
    (table' : Table τ) (hText : request arguments (firstLine input) = text)
    (hRoller : roller.KeepsPromise) (hRoller' : roller'.KeepsPromise)
    (hDeterministic : ∀ formula, Formula.read text = .ok formula →
      formula.expr.isDeterministic = true)
    (hReport : ¬ "[Roll failed]: ".toList <+: report.toList) :
    ∃ transcript rest result last last',
      run (request arguments (firstLine input)) roller table = (.ok transcript, last) ∧
      (Formula.roll text).run roller' table' = (.ok result, last') ∧
      transcript.output = "Input: " ++ text ++ "\n" ++ rest ∧
      (transcript.exitCode = 0 ↔ ∃ outcome, result = .ok outcome) ∧
      (∀ outcome, result = .ok outcome → ∃ formula evaluated,
        Formula.read text = .ok formula ∧
        Evaluated.groups none evaluated = outcome.groups ∧
        Evaluated.calculate evaluated = .ok outcome.total ∧
        rest = unlines
          ["Parsed: " ++ Inspection.expr Inspection.dice formula.expr,
            "Canonical: " ++ formula.expr.canonical,
            "Deterministic: true",
            "",
            "Evaluated: " ++ Inspection.expr Inspection.rolled evaluated,
            "Rolls: " ++ outcome.rolls,
            "Total: " ++ Value.text outcome.total]) ∧
      (transcript.exitCode = 1 ∧ rest = "" ↔ (Formula.validate text).value = false) ∧
      (transcript.exitCode = 1 ∧
        "[Roll failed]: ".toList <+: (transcript.told report).toList ∧
        (∀ line ∈ rest.toList.splitOn '\n', ¬ "Total: ".toList <+: line) ↔
        (∃ cause, result = .error (.evaluation cause)) ∨
          ∃ cause, result = .error (.calculation cause)) := by
  obtain ⟨rest, failure, result, last, last', hRun, hRoll, hEnding⟩ :=
    exists_ending hDeterministic hRoller hRoller' table table'
  rw [hText]
  refine ⟨_, rest, result, last, last', hRun, hRoll, rfl, hEnding.exitCode_eq_zero_iff,
    ?_, ?_, hEnding.failed_iff hReport⟩
  · rintro outcome rfl
    cases hEnding with
    | @counted formula evaluated total hRead hTotal =>
        have hReading : readingLines formula.expr =
            ["Parsed: " ++ Inspection.expr Inspection.dice formula.expr,
              "Canonical: " ++ formula.expr.canonical, "Deterministic: true"] := by
          rw [readingLines, hDeterministic formula hRead]
          rfl
        refine ⟨formula, evaluated, hRead, rfl, hTotal, ?_⟩
        rw [hReading]
        rfl
  · rw [Formula.value_validate]
    exact hEnding.silent_iff

/-- Two dice with one side and a number. -/
theorem read_sum :
    Formula.read "2d1 + 3" =
      .ok ⟨"2d1 + 3", .binary .add (.dice ⟨2, .numbered 1, []⟩) (.num 3)⟩ := by
  decide +kernel

/-- Always gives the lower end of the interval. -/
def lowest : Roller Unit where
  draw _ lo _ := .ok (lo, ())

theorem lowest_keepsPromise : lowest.KeepsPromise :=
  fun _ lo _ h => ⟨lo, (), rfl, Int32.le_refl lo, h⟩

/-- They come to five in the program, which gives the lowest face and takes them from
the first of two lines, as they do with a roller that gives the highest face. There is
nothing to report about their text. -/
theorem run_agrees_with_roll_sum :
    request [] (firstLine "2d1 + 3\r\nd20\n") = "2d1 + 3" ∧
    lowest.KeepsPromise ∧ Roller.highest.KeepsPromise ∧
    (∀ formula, Formula.read "2d1 + 3" = .ok formula →
      formula.expr.isDeterministic = true) ∧
    ¬ "[Roll failed]: ".toList <+: "".toList ∧
    ∃ transcript evaluated last,
      run (request [] (firstLine "2d1 + 3\r\nd20\n")) lowest (Table.new ()) =
        (.ok transcript, last) ∧
      transcript.exitCode = 0 ∧
      transcript.output = "Input: 2d1 + 3\n" ++ unlines
        ["Parsed: " ++ Inspection.expr Inspection.dice
            (.binary .add (.dice ⟨2, .numbered 1, []⟩) (.num 3)),
          "Canonical: 2d1 + 3",
          "Deterministic: true",
          "",
          "Evaluated: " ++ Inspection.expr Inspection.rolled evaluated,
          "Rolls: 1, 1 + 3",
          "Total: 5"] := by
  have hLine : Unbroken "2d1 + 3" := by decide
  have hText : request [] (firstLine "2d1 + 3\r\nd20\n") = "2d1 + 3" := by
    rw [request_nil]
    exact firstLine_append_return hLine "d20\n"
  have hDeterministic : ∀ formula, Formula.read "2d1 + 3" = .ok formula →
      formula.expr.isDeterministic = true := by
    intro formula hRead
    rw [read_sum] at hRead
    cases hRead
    rfl
  have hReport : ¬ "[Roll failed]: ".toList <+: "".toList := by decide
  obtain ⟨transcript, rest, result, last, last', hRun, hRoll, hOutput, hCode, hLines, -⟩ :=
    run_agrees_with_roll "" (Table.new ()) (Table.new ()) hText
      lowest_keepsPromise Roller.highest_keepsPromise hDeterministic hReport
  have hOutcome : ((Formula.roll "2d1 + 3").run Roller.highest (Table.new ())).1 =
      .ok (.ok ⟨5, ["1, 1", "+", "3"], "2d1 + 3"⟩) := by
    rw [Formula.run_roll_of_ok read_sum]
    rfl
  rw [hRoll] at hOutcome
  cases hOutcome
  obtain ⟨formula, evaluated, hRead, -, -, hRest⟩ := hLines _ rfl
  rw [read_sum] at hRead
  cases hRead
  refine ⟨hText, lowest_keepsPromise, Roller.highest_keepsPromise, hDeterministic,
    hReport, transcript, evaluated, last, hRun, hCode.2 ⟨_, rfl⟩, ?_⟩
  rw [hOutput, hRest]
  rfl

end DiceFormula.CommandLine
