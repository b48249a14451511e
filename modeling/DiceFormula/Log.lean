import DiceFormula.Formula.Error

/-!
# The log

What the library reports about its work, as data: a record says what happened,
and its level and text follow from that. Code that reports something without
throwing dice is `Logged`: a value with the records made on the way to it.

## Main results

* `Logged.value_bind`, `Logged.records_bind` — a sequence of steps makes their
  records one after the other.
-/

namespace DiceFormula

namespace Log

/-- How much a record matters, the least first. -/
inductive Level where
  | trace
  | debug
  | warn
  deriving DecidableEq

/-- Something that is reported. -/
inductive Record where
  /-- A formula of this length, shown without quotes and the blanks around
  it, is longer than a formula may be. -/
  | tooLong (length : Nat) (formula : String)
  /-- A formula did not pass the validation. -/
  | invalid (formula : String) (cause : Formula.InputError)
  /-- A formula is about to be rolled. -/
  | rolling (formula : String) (expr : Expr Dice)
  /-- A set of dice was thrown and modified. -/
  | thrown (set : Rolled)
  /-- A formula was rolled. -/
  | rolled (formula : String) (total : Value) (rolls : String)
  /-- A formula was not rolled. -/
  | failed (formula : String) (cause : Formula.Error)
  /-- A text macro was given a formula that is refused. -/
  | invalidMacro (formula : String)

namespace Record

/-- The level of a record. -/
def level : Record → Level
  | tooLong _ _ => .warn
  | invalid _ _ => .debug
  | rolling _ _ => .debug
  | thrown _ => .trace
  | rolled _ _ _ => .debug
  | failed _ _ => .debug
  | invalidMacro _ => .debug

/-- The text in double quotes. -/
private def quoted (text : String) : String := "\x22" ++ text ++ "\x22"

/-- The text of a record. -/
def text : Record → String
  | tooLong length formula =>
    "Formula too long (" ++ length.repr ++ " characters): " ++ quoted formula
  | invalid formula cause =>
    "Invalid formula " ++ quoted formula ++ ": " ++ cause.message
  | rolling formula expr =>
    "Rolling " ++ quoted formula ++ ", parsed as " ++ expr.canonical
  | thrown set =>
    "Rolled " ++ set.dice.text ++ ": " ++ set.describe none
  | rolled formula total rolls =>
    "Rolled " ++ quoted formula ++ ": " ++ Value.text total ++ " (" ++ rolls ++
      ")"
  | failed formula cause =>
    "Roll of " ++ quoted formula ++ " failed: " ++ cause.message
  | invalidMacro formula => "Invalid roll formula: " ++ formula

end Record

end Log

/-- A value and the records made on the way to it. -/
structure Logged (α : Type) where
  value : α
  records : List Log.Record

namespace Logged

variable {α β : Type}

instance : Monad Logged where
  pure a := ⟨a, []⟩
  bind x f := ⟨(f x.value).value, x.records ++ (f x.value).records⟩

/-- Makes one record. -/
def note (record : Log.Record) : Logged Unit := ⟨(), [record]⟩

@[simp] theorem value_pure (a : α) : (pure a : Logged α).value = a := rfl

@[simp] theorem records_pure (a : α) : (pure a : Logged α).records = [] := rfl

@[simp] theorem value_bind (x : Logged α) (f : α → Logged β) :
    (x >>= f).value = (f x.value).value := rfl

@[simp] theorem records_bind (x : Logged α) (f : α → Logged β) :
    (x >>= f).records = x.records ++ (f x.value).records := rfl

@[simp] theorem value_note (record : Log.Record) :
    (note record).value = () := rfl

@[simp] theorem records_note (record : Log.Record) :
    (note record).records = [record] := rfl

end Logged

end DiceFormula
