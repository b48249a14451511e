import DiceFormula.Proofs.Chat.Macro

/-!
# Replies

A chat learns what a formula came to from texts alone. Every way of rolling
reads the formula for itself, some of them more than once and some after it has
been trimmed, and each has its own rule for the reply to an error. All the same
they agree: the text that is shown depends on the result of a roll only, and
what is drawn is what that roll draws.

## Main results

* `isValid_iff_not_refused` — a formula is valid if a roll does not refuse it.
* `run_command` — the run of a command as one equation.
* `command_eq_roll` — a command is a roll with its result put into words.
* `replies_agree` — what holds of all replies to a formula together.
-/

namespace DiceFormula

variable {σ : Type}

namespace Formula

/-! ## Formulas without the blanks around them -/

theorem trimmed_trimmed (text : String) :
    Text.trimmed (Text.trimmed text) = Text.trimmed text := by
  rw [Text.trimmed, Text.trimmed, String.toList_ofList, Text.trim_trim]

theorem read_trimmed (text : String) : read (Text.trimmed text) = read text := by
  rw [read, read, normalize_trimmed]

theorem isValid_trimmed (text : String) :
    isValid (Text.trimmed text) = isValid text := by
  rw [isValid, isValid, read_trimmed]

theorem warnings_trimmed (text : String) :
    warnings (Text.trimmed text) = warnings text := by
  simp only [warnings, normalize_trimmed, bare_trimmed]

theorem run_roll_trimmed (text : String) (roller : Roller σ) (table : Table σ) :
    (roll (Text.trimmed text)).run roller table = (roll text).run roller table := by
  rw [run_roll, run_roll, read_trimmed, warnings_trimmed]

/-! ## Results -/

/-- What is shown of the result of a roll. -/
def shown : Except Error Outcome → String
  | .ok outcome => outcome.text
  | .error err => err.reply

/-- The total comes first. -/
theorem Outcome.text_eq (outcome : Outcome) :
    outcome.text = Value.text outcome.total ++ (" (" ++ outcome.rolls ++ ")") := by
  simp only [text, String.append_assoc]

theorem Outcome.text_ne_nothing (outcome : Outcome) : outcome.text ≠ "" := by
  intro h
  have hNil := congrArg String.toList h
  rw [text_eq, String.toList_append] at hNil
  exact Value.text_toList_ne_nil _ (List.append_eq_nil_iff.1 hNil).1

theorem failedReply_ne_invalidReply : failedReply ≠ invalidReply := by decide

theorem shown_eq_invalidReply_iff {result : Except Error Outcome} :
    shown result = invalidReply ↔ ∃ cause, result = .error (.refused cause) := by
  cases result with
  | ok outcome => exact iff_of_false (Chat.text_ne_of_head? rfl) nofun
  | error err =>
      cases err with
      | refused cause => exact iff_of_true rfl ⟨cause, rfl⟩
      | evaluation cause => exact iff_of_false failedReply_ne_invalidReply nofun
      | calculation cause => exact iff_of_false failedReply_ne_invalidReply nofun

theorem shown_eq_failedReply_iff {result : Except Error Outcome} :
    shown result = failedReply ↔
      (∀ cause, result ≠ .error (.refused cause)) ∧ ∃ err, result = .error err := by
  cases result with
  | ok outcome => exact iff_of_false (Chat.text_ne_of_head? rfl) nofun
  | error err =>
      cases err with
      | refused cause =>
          exact iff_of_false failedReply_ne_invalidReply.symm
            fun h => h.1 cause rfl
      | evaluation cause => exact iff_of_true rfl ⟨nofun, _, rfl⟩
      | calculation cause => exact iff_of_true rfl ⟨nofun, _, rfl⟩

/-- Nothing that is shown of a roll looks as if no dice could be rolled. -/
theorem shown_ne_notLoadedReply (result : Except Error Outcome) :
    shown result ≠ Chat.notLoadedReply := by
  have hInvalid : invalidReply ≠ Chat.notLoadedReply := by decide
  have hFailed : failedReply ≠ Chat.notLoadedReply := by decide
  cases result with
  | ok outcome => exact Chat.text_ne_of_head? rfl
  | error err =>
      cases err with
      | refused => exact hInvalid
      | evaluation | calculation => exact hFailed

/-- A formula that is not valid is refused before anything is drawn. -/
theorem exists_refused_of_invalid {text : String} (h : isValid text = false)
    (roller : Roller σ) (table : Table σ) : ∃ cause,
      (roll text).run roller table =
        (.ok (.error (.refused cause)), table.logged (warnings text)) := by
  cases hRead : read text with
  | error cause => exact ⟨cause, run_roll_of_error hRead roller table⟩
  | ok formula =>
      rw [isValid_iff.2 ⟨formula, hRead⟩] at h
      cases h

/-- A formula is valid if a roll does not refuse it. -/
theorem isValid_iff_not_refused (text : String) (roller : Roller σ)
    (table : Table σ) :
    isValid text = true ↔
      ∀ cause, ((roll text).run roller table).1 ≠ .ok (.error (.refused cause)) := by
  constructor
  · intro hValid cause hRefused
    obtain ⟨formula, hRead⟩ := isValid_iff.1 hValid
    rw [run_roll_of_ok hRead] at hRefused
    exact run_rollRead_ne_refused formula roller _ _ cause (Prod.ext hRefused rfl)
  · intro hNot
    cases hValid : isValid text with
    | true => rfl
    | false =>
        obtain ⟨cause, hRun⟩ := exists_refused_of_invalid hValid roller table
        rw [hRun] at hNot
        exact absurd rfl (hNot cause)

theorem isValid_of_blank {text : String} (h : Text.trimmed text = "") :
    isValid text = false := by
  rw [isValid, read_eq_error (normalize_of_blank h)]
  rfl

end Formula

namespace Chat

open Formula

/-! ## Runs -/

theorem run_rollToString (text : String) (roller : Roller σ) (table : Table σ) :
    rollToString text roller table =
      match (roll text).run roller table with
      | (.error halt, after) => (.error halt, after)
      | (.ok (.error err), after) => (.ok err.reply, after.noted (.failed text err))
      | (.ok (.ok outcome), after) => (.ok outcome.text, after) := by
  unfold rollToString
  rw [Rolling.bind_apply]
  rcases (roll text).run roller table with ⟨halt | err | outcome, after⟩ <;> rfl

/-- The text of a roll shows its result and draws what it draws. -/
theorem rollToString_eq_roll (text : String) (roller : Roller σ)
    (table : Table σ) :
    (rollToString text roller table).1 =
        ((roll text).run roller table).1.map shown ∧
      ((roll text).run roller table).2.Matches
        (rollToString text roller table).2 := by
  rw [run_rollToString]
  rcases (roll text).run roller table with ⟨halt | err | outcome, after⟩
  · exact ⟨rfl, rfl, rfl⟩
  · exact ⟨rfl, rfl, rfl⟩
  · exact ⟨rfl, rfl, rfl⟩

theorem run_command_of_blank {text : String} (h : Text.trimmed text = "")
    (actor : String) (settings : Settings) (roller : Roller σ)
    (table : Table σ) :
    command actor text settings roller table = (.ok .nothing, table) := by
  rw [command, h]
  rfl

/-- The run of a command. A formula that is valid is rolled on the table as it
is, since there is nothing to be said about it in the log. -/
theorem run_command {text : String} (h : Text.trimmed text ≠ "")
    (actor : String) (settings : Settings) (roller : Roller σ)
    (table : Table σ) :
    command actor text settings roller table =
      if isValid text then
        match (roll text).run roller table with
        | (.error halt, after) => (.error halt, after)
        | (.ok (.error err), after) =>
          (.ok ⟨failedReply, none⟩,
            after.noted (.failed (Text.trimmed text) err))
        | (.ok (.ok outcome), after) =>
          (.ok ⟨outcome.text, if settings.quiet then none
            else some (announce actor (Text.trimmed text) outcome)⟩, after)
      else
        (.ok ⟨invalidReply, none⟩,
          table.logged (validate (Text.trimmed text)).records) := by
  have hNonempty : (Text.trimmed text).isEmpty = false := by
    rw [Bool.eq_false_iff, Ne, String.isEmpty_iff]
    exact h
  unfold command
  simp only [hNonempty, Bool.false_eq_true, if_false]
  rw [Rolling.bind_apply, Rolling.run_ofLogged, value_validate, isValid_trimmed]
  cases hValid : isValid text with
  | false => rfl
  | true =>
      obtain ⟨formula, hRead⟩ := isValid_iff.1 hValid
      have hRecords : (validate (Text.trimmed text)).records = [] := by
        rw [records_validate_of_ok ((read_trimmed text).trans hRead),
          warnings_trimmed, warnings_of_read hRead]
      simp only [if_true, hRecords, Table.logged_nil]
      rw [Rolling.bind_apply, run_roll_trimmed]
      rcases (roll text).run roller table with ⟨halt | err | outcome, after⟩ <;> rfl

/-- The answer to a command whose formula came to `result`. -/
def replyTo (actor text : String) (settings : Settings)
    (result : Except Formula.Error Outcome) : Reply where
  output := shown result
  message :=
    match result with
    | .ok outcome => if settings.quiet then none
        else some (announce actor (Text.trimmed text) outcome)
    | .error _ => none

/-- A command rolls its formula and draws what a roll draws. -/
theorem command_eq_roll {text : String} (h : Text.trimmed text ≠ "")
    (actor : String) (settings : Settings) (roller : Roller σ)
    (table : Table σ) :
    (command actor text settings roller table).1 =
        ((roll text).run roller table).1.map (replyTo actor text settings) ∧
      ((roll text).run roller table).2.Matches
        (command actor text settings roller table).2 := by
  rw [run_command h]
  cases hValid : isValid text with
  | false =>
      obtain ⟨cause, hRun⟩ := exists_refused_of_invalid hValid roller table
      rw [hRun, if_neg Bool.false_ne_true]
      exact ⟨rfl, table.logged_matches_logged _ _⟩
  | true =>
      have hAccepted := (isValid_iff_not_refused text roller table).1 hValid
      rw [if_pos rfl]
      rcases hRun : (roll text).run roller table with ⟨halt | err | outcome, after⟩
      · exact ⟨rfl, rfl, rfl⟩
      · rw [hRun] at hAccepted
        cases err with
        | refused cause => exact absurd rfl (hAccepted cause)
        | evaluation cause => exact ⟨rfl, rfl, rfl⟩
        | calculation cause => exact ⟨rfl, rfl, rfl⟩
      · exact ⟨rfl, rfl, rfl⟩

/-- A command shows the text of the roll, whoever gave it and whatever the
settings. -/
theorem command_eq_rollToString {text : String} (h : Text.trimmed text ≠ "")
    (actor : String) (settings : Settings) (roller : Roller σ)
    (table : Table σ) :
    (command actor text settings roller table).1.map Reply.output =
        (rollToString text roller table).1 ∧
      (rollToString text roller table).2.Matches
        (command actor text settings roller table).2 := by
  obtain ⟨hReply, hReplyTable⟩ := command_eq_roll h actor settings roller table
  obtain ⟨hText, hTextTable⟩ := rollToString_eq_roll text roller table
  refine ⟨?_, hTextTable.symm.trans hReplyTable⟩
  rw [hReply, hText]
  cases ((roll text).run roller table).1 <;> rfl

/-! ## The tool -/

/-- What the tool says before it tells the text of the roll: who rolls, if there is
a name, and what. -/
def toolIntro (who : Option String) (formula : String) : String :=
  if who.getD "" = "" then "The result of a " ++ formula ++ " roll is: "
  else who.getD "" ++ " rolls a " ++ formula ++ ". The result is: "

theorem toolSentence_eq (who : Option String) (formula output : String) :
    toolSentence who formula output = toolIntro who formula ++ output := by
  cases who with
  | none => rfl
  | some name =>
      unfold toolSentence toolIntro
      simp only [Option.getD_some, String.isEmpty_iff]
      split
      · rfl
      · rfl

/-- The formula the tool is given is rolled without the blanks around it. -/
theorem toolFormula_of_given {formula : Option String} :
    ∀ text ∈ formula, Text.trimmed text ≠ "" →
      toolFormula formula = Text.trimmed text := by
  rintro text ⟨⟩ hText
  have hNonempty : ¬ (Text.trimmed text).isEmpty = true := by
    rwa [String.isEmpty_iff]
  rw [toolFormula, Option.map_some]
  exact if_neg hNonempty

/-- A blank formula is as good as none. -/
theorem toolFormula_of_blank {formula : Option String}
    (h : ∀ text ∈ formula, Text.trimmed text = "") :
    toolFormula formula = "d20" := by
  cases formula with
  | none => rfl
  | some text =>
      rw [toolFormula, Option.map_some, h text rfl]
      rfl

theorem trimmed_toolFormula_ne_blank (formula : Option String) :
    Text.trimmed (toolFormula formula) ≠ "" := by
  by_cases hBlank : ∀ text ∈ formula, Text.trimmed text = ""
  · rw [toolFormula_of_blank hBlank]
    decide
  · push Not at hBlank
    obtain ⟨text, hMem, hText⟩ := hBlank
    rwa [toolFormula_of_given text hMem hText, trimmed_trimmed]

theorem run_toolReply_of_off (who formula : Option String) {settings : Settings}
    (h : settings.functionTool = false) (roller : Roller σ) (table : Table σ) :
    toolReply who formula settings roller table = (.ok none, table) := by
  rw [toolReply, h]
  rfl

/-- The tool tells the text of the roll of its formula, and draws what that
roll draws. -/
theorem toolReply_eq_rollToString (who formula : Option String)
    {settings : Settings} (h : settings.functionTool = true) (roller : Roller σ)
    (table : Table σ) :
    (toolReply who formula settings roller table).1 =
        (rollToString (toolFormula formula) roller table).1.map
          (fun output => some (toolIntro who (toolFormula formula) ++ output)) ∧
      (rollToString (toolFormula formula) roller table).2.Matches
        (toolReply who formula settings roller table).2 := by
  obtain ⟨hOutput, hTable⟩ := command_eq_rollToString
    (trimmed_toolFormula_ne_blank formula) "" ⟨true, true⟩ roller table
  unfold toolReply
  rw [if_pos h, Rolling.bind_apply, ← hOutput]
  rcases hRun : command "" (toolFormula formula) ⟨true, true⟩ roller table with
    ⟨halt | reply, after⟩
  · rw [hRun] at hTable
    exact ⟨rfl, hTable⟩
  · rw [hRun] at hTable
    refine ⟨?_, hTable⟩
    show _ = Except.ok (some (toolIntro who (toolFormula formula) ++ reply.output))
    rw [← toolSentence_eq]
    rfl

theorem toolReply_eq_none_iff (who formula : Option String)
    (settings : Settings) (roller : Roller σ) (table : Table σ) :
    (toolReply who formula settings roller table).1 = .ok none ↔
      settings.functionTool = false := by
  cases hTool : settings.functionTool with
  | false =>
      rw [run_toolReply_of_off who formula hTool]
      exact iff_of_true rfl rfl
  | true =>
      rw [(toolReply_eq_rollToString who formula hTool roller table).1]
      refine iff_of_false ?_ nofun
      cases (rollToString (toolFormula formula) roller table).1 <;> exact nofun

/-! ## Formulas that are not valid -/

theorem roll_untouched {text : String} (h : isValid text = false)
    (roller : Roller σ) (table : Table σ) :
    table.Matches ((roll text).run roller table).2 := by
  obtain ⟨cause, hRun⟩ := exists_refused_of_invalid h roller table
  rw [hRun]
  exact ⟨rfl, rfl⟩

theorem macroReply_untouched {text : String} (h : isValid text = false)
    (roller : Roller σ) (table : Table σ) :
    table.Matches (macroReply text roller table).2 := by
  have hAgrees : MacroAgrees text roller table := by
    cases hNormal : normalize text with
    | error cause => exact agrees_of_normalize_error hNormal roller table
    | ok normalForm => exact agrees_of_unreadable hNormal h roller table
  exact (roll_untouched h roller table).trans
    ⟨hAgrees.state.symm, hAgrees.draws.symm⟩

theorem rollToString_untouched {text : String} (h : isValid text = false)
    (roller : Roller σ) (table : Table σ) :
    table.Matches (rollToString text roller table).2 :=
  (roll_untouched h roller table).trans (rollToString_eq_roll text roller table).2

theorem command_untouched {text : String} (h : isValid text = false)
    (actor : String) (settings : Settings) (roller : Roller σ)
    (table : Table σ) :
    table.Matches (command actor text settings roller table).2 := by
  by_cases hBlank : Text.trimmed text = ""
  · rw [run_command_of_blank hBlank]
    exact ⟨rfl, rfl⟩
  · exact (rollToString_untouched h roller table).trans
      (command_eq_rollToString hBlank actor settings roller table).2

theorem toolReply_untouched {formula : Option String}
    (h : isValid (toolFormula formula) = false) (who : Option String)
    (settings : Settings) (roller : Roller σ) (table : Table σ) :
    table.Matches (toolReply who formula settings roller table).2 := by
  cases hTool : settings.functionTool with
  | false =>
      rw [run_toolReply_of_off who formula hTool]
      exact ⟨rfl, rfl⟩
  | true =>
      exact (rollToString_untouched h roller table).trans
        (toolReply_eq_rollToString who formula hTool roller table).2

/-! ## Agreement -/

/-- What the answer to a command tells of the result of the roll. -/
structure Reply.Tells (text : String) (settings : Settings)
    (result : Except Formula.Error Outcome) (reply : Reply) : Prop where
  invalid : reply.output = invalidReply ↔ isValid text = false
  failed : reply.output = failedReply ↔
    isValid text = true ∧ ∃ err, result = .error err
  total : reply.output ≠ invalidReply → reply.output ≠ failedReply →
    reply.output ≠ "" ∧ ∃ outcome rest, result = .ok outcome ∧
      reply.output = Value.text outcome.total ++ rest
  message : reply.message.isSome = true ↔
    (∃ outcome, result = .ok outcome) ∧ settings.quiet = false

theorem tells_replyTo {text : String} {result : Except Formula.Error Outcome}
    (hValid : isValid text = true ↔ ∀ cause, result ≠ .error (.refused cause))
    (actor : String) (settings : Settings) :
    (replyTo actor text settings result).Tells text settings result where
  invalid := by
    rw [← Bool.not_eq_true, hValid]
    push Not
    exact shown_eq_invalidReply_iff
  failed := by
    rw [hValid]
    exact shown_eq_failedReply_iff
  total := by
    intro hInvalid hFailed
    cases result with
    | ok outcome =>
        exact ⟨outcome.text_ne_nothing, outcome, _, rfl, outcome.text_eq⟩
    | error err =>
        cases err with
        | refused cause => exact absurd rfl hInvalid
        | evaluation cause => exact absurd rfl hFailed
        | calculation cause => exact absurd rfl hFailed
  message := by
    cases result with
    | ok outcome =>
        cases hQuiet : settings.quiet with
        | false =>
            rw [replyTo, hQuiet]
            exact iff_of_true rfl ⟨⟨outcome, rfl⟩, rfl⟩
        | true =>
            rw [replyTo, hQuiet]
            exact iff_of_false nofun nofun
    | error err => exact iff_of_false nofun nofun

/-- A command that is answered comes from a roll that has a result, and its
answer tells that result. -/
theorem exists_tells_of_command {text actor : String} {settings : Settings}
    {roller : Roller σ} {table : Table σ} {reply : Reply}
    (hText : Text.trimmed text ≠ "")
    (hReply : (command actor text settings roller table).1 = .ok reply) :
    ∃ result, ((roll text).run roller table).1 = .ok result ∧
      reply.Tells text settings result := by
  have hValid := isValid_iff_not_refused text roller table
  rw [(command_eq_roll hText actor settings roller table).1] at hReply
  cases hResult : ((roll text).run roller table).1 with
  | error halt =>
      rw [hResult] at hReply
      cases hReply
  | ok result =>
      rw [hResult] at hReply hValid
      cases hReply
      refine ⟨result, rfl, tells_replyTo ?_ actor settings⟩
      simpa only [ne_eq, Except.ok.injEq] using hValid

/-- The ways of rolling a text agree with each other. -/
structure RepliesAgree (text : String) (roller : Roller σ) (table : Table σ) :
    Prop where
  /-- A text is valid if rolling it does not find it at fault. -/
  valid : (validate text).value = isValid text ∧ (isValid text = true ↔
    ∀ cause, ((roll text).run roller table).1 ≠ .ok (.error (.refused cause)))
  /-- Nothing is drawn for a text that is not valid. The tool does not roll a
  blank text at all but its standard formula, see `ToolAgrees`. -/
  untouched : isValid text = false →
    table.Matches ((roll text).run roller table).2 ∧
      table.Matches (rollToString text roller table).2 ∧
      table.Matches (macroReply text roller table).2 ∧
      (∀ actor settings,
        table.Matches (command actor text settings roller table).2) ∧
      ∀ who settings, Text.trimmed text ≠ "" →
        table.Matches (toolReply who (some text) settings roller table).2
  /-- A blank text is not valid, but a command shows nothing for it. -/
  blank : Text.trimmed text = "" → isValid text = false ∧
    ∀ actor settings,
      command actor text settings roller table = (.ok ⟨"", none⟩, table)
  /-- The text of a roll shows its result. -/
  string : (rollToString text roller table).1 =
      ((roll text).run roller table).1.map shown ∧
    ((roll text).run roller table).2.Matches (rollToString text roller table).2
  /-- A command shows the text of the roll. -/
  output : Text.trimmed text ≠ "" → ∀ actor settings,
    (command actor text settings roller table).1.map Reply.output =
        (rollToString text roller table).1 ∧
      (rollToString text roller table).2.Matches
        (command actor text settings roller table).2
  /-- What a command shows tells the results apart. -/
  tells : Text.trimmed text ≠ "" → ∀ actor settings reply,
    (command actor text settings roller table).1 = .ok reply →
      ∃ result, ((roll text).run roller table).1 = .ok result ∧
        reply.Tells text settings result

/-- The tool, if it is offered, rolls what it is given. -/
structure ToolAgrees (who formula : Option String) (settings : Settings)
    (roller : Roller σ) (table : Table σ) : Prop where
  /-- The tool answers unless it is not offered, and then it draws nothing. -/
  nothing : (toolReply who formula settings roller table).1 = .ok none ↔
    settings.functionTool = false
  off : settings.functionTool = false →
    toolReply who formula settings roller table = (.ok none, table)
  /-- What is rolled is the formula given, or the standard one. -/
  given : ∀ text ∈ formula, Text.trimmed text ≠ "" →
    toolFormula formula = Text.trimmed text
  standard : (∀ text ∈ formula, Text.trimmed text = "") →
    toolFormula formula = "d20"
  /-- The answer is a fixed sentence and the text of that roll. -/
  on : settings.functionTool = true →
    (toolReply who formula settings roller table).1 =
        (rollToString (toolFormula formula) roller table).1.map
          (fun output => some (toolIntro who (toolFormula formula) ++ output)) ∧
      (rollToString (toolFormula formula) roller table).2.Matches
        (toolReply who formula settings roller table).2

/-- Validation, rolls, commands and the tool agree on every formula, with every
roller and whatever the settings. -/
theorem replies_agree (roller : Roller σ) (table : Table σ) :
    (∀ text, RepliesAgree text roller table) ∧
      ∀ who formula settings, ToolAgrees who formula settings roller table := by
  refine ⟨fun text => ?_, fun who formula settings => ?_⟩
  · have hValid := isValid_iff_not_refused text roller table
    refine ⟨⟨value_validate text, hValid⟩, ?_, ?_, ?_, ?_, ?_⟩
    · intro hInvalid
      refine ⟨roll_untouched hInvalid roller table,
        rollToString_untouched hInvalid roller table,
        macroReply_untouched hInvalid roller table, ?_, ?_⟩
      · intro actor settings
        exact command_untouched hInvalid actor settings roller table
      · intro who settings hText
        refine toolReply_untouched ?_ who settings roller table
        rw [toolFormula_of_given text rfl hText, isValid_trimmed, hInvalid]
    · intro hBlank
      refine ⟨isValid_of_blank hBlank, fun actor settings => ?_⟩
      exact run_command_of_blank hBlank actor settings roller table
    · exact rollToString_eq_roll text roller table
    · intro hText actor settings
      exact command_eq_rollToString hText actor settings roller table
    · intro hText actor settings reply hReply
      exact exists_tells_of_command hText hReply
  · exact ⟨toolReply_eq_none_iff who formula settings roller table,
      fun hOff => run_toolReply_of_off who formula hOff roller table,
      toolFormula_of_given, toolFormula_of_blank,
      fun hOn => toolReply_eq_rollToString who formula hOn roller table⟩

end Chat

end DiceFormula
