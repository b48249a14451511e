import DiceFormula.Formula.Roll

/-!
# Dice in a chat

The replies of a chat that can roll dice: to a command, to a tool that a
persona may call, and to a text macro. A chat recognizes failures by fixed
replies, so every way of rolling ends in some text and none in an error.

The macro spells out what went wrong; the others use the fixed replies
`Formula.invalidReply` and `Formula.failedReply`.
-/

namespace DiceFormula.Chat

variable {σ : Type}

/-- The reply of a chat that cannot roll dice. -/
def notLoadedReply : String := "[Dice roller not loaded]"

/-- What the tool rolls if it is not told. -/
def defaultToolFormula : String := "d20"

/-- What a chat can be set to. -/
structure Settings where
  /-- Whether personas may roll with the tool. -/
  functionTool : Bool
  /-- Whether a command answers only the one who gave it. -/
  quiet : Bool
  deriving DecidableEq

/-- Personas may use the tool and commands are announced to everyone. -/
def Settings.standard : Settings := ⟨true, false⟩

instance : Inhabited Settings := ⟨.standard⟩

/-- The answer to a command. -/
structure Reply where
  /-- What the one who gave the command is shown. -/
  output : String
  /-- What everyone is shown, if anything. -/
  message : Option String
  deriving DecidableEq

/-- The answer to a command without a formula. -/
def Reply.nothing : Reply := ⟨"", none⟩

instance : Inhabited Reply := ⟨.nothing⟩

/-! ## Rolling -/

/-- What everyone is shown of a roll. -/
def announce (actor formula : String) (outcome : Formula.Outcome) : String :=
  actor ++ " rolls " ++ formula ++ ". The result is: " ++ outcome.text

/-- The text of a roll, or the fixed reply if it fails. -/
def rollToString (formula : String) : Rolling σ String := do
  match ← (Formula.roll formula).run with
  | .ok outcome => return outcome.text
  | .error err =>
    Rolling.note (.failed formula err)
    return err.reply

/-- The answer to a command that `actor` gave. -/
def command (actor formula : String) (settings : Settings) :
    Rolling σ Reply := do
  let formula := Text.trimmed formula
  if formula.isEmpty then
    return .nothing
  else
    let valid ← Rolling.ofLogged (Formula.validate formula)
    if valid then
      match ← (Formula.roll formula).run with
      | .ok outcome =>
        return ⟨outcome.text, if settings.quiet then none
          else some (announce actor formula outcome)⟩
      | .error err =>
        Rolling.note (.failed formula err)
        return ⟨Formula.failedReply, none⟩
    else
      return ⟨Formula.invalidReply, none⟩

/-- The formula the tool rolls when it is given `formula`. -/
def toolFormula (formula : Option String) : String :=
  match formula.map Text.trimmed with
  | some text => if text.isEmpty then defaultToolFormula else text
  | none => defaultToolFormula

/-- What the tool says about a roll of the persona `who`, who may have no
name. -/
def toolSentence (who : Option String) (formula output : String) : String :=
  match who with
  | some name =>
    if name.isEmpty then
      "The result of a " ++ formula ++ " roll is: " ++ output
    else
      name ++ " rolls a " ++ formula ++ ". The result is: " ++ output
  | none => "The result of a " ++ formula ++ " roll is: " ++ output

/-- The answer of the tool, unless the settings do not offer it. -/
def toolReply (who formula : Option String) (settings : Settings) :
    Rolling σ (Option String) := do
  if settings.functionTool then
    let formula := toolFormula formula
    let reply ← command "" formula ⟨true, true⟩
    return some (toolSentence who formula reply.output)
  else
    return none

/-! ## The macro -/

/-- What the macro says about a formula that is refused. -/
def invalidMacroReply (formula : String) : String :=
  "[Error: Invalid formula \x22" ++ formula ++ "\x22]"

/-- The text that takes the place of a macro. -/
def macroReply (arguments : String) : Rolling σ String := do
  match ← Rolling.ofLogged (Formula.normalizeLogged arguments) with
  | .error .empty => return "[Error: Empty dice formula]"
  | .error _ => return invalidMacroReply (Text.trimmed arguments)
  | .ok formula =>
    let valid ← Rolling.ofLogged (Formula.validate formula)
    if valid then
      match ← (Formula.roll formula).run with
      | .ok outcome => return outcome.text
      | .error _ => return "[Error: Failed to roll " ++ formula ++ "]"
    else
      Rolling.note (.invalidMacro formula)
      return invalidMacroReply formula

end DiceFormula.Chat
