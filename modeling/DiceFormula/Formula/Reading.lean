import DiceFormula.Expr.Reading
import DiceFormula.Formula.Normalization

/-!
# Reading formulas

A formula is brought into its normal form and then read as an expression. A
text can be validated without throwing anything; only what would fail before
the first throw is found that way.

## Main results

* `value_readLogged`, `value_validate` — the log changes no answer.
-/

namespace DiceFormula

/-- A formula that has been read: its normal form and the expression it
denotes. -/
structure Formula where
  text : String
  expr : Expr Dice
  deriving DecidableEq

namespace Formula

/-- The expression of a normal form. -/
def ofNormalForm (text : String) : Except InputError Formula :=
  match Expr.read? text with
  | some expr => .ok ⟨text, expr⟩
  | none => .error .unreadable

/-- The formula a text stands for. -/
def read (text : String) : Except InputError Formula := do
  ofNormalForm (← normalize text)

/-- The formula a text stands for, with the records made in reading it. -/
def readLogged (text : String) : Logged (Except InputError Formula) := do
  let normalForm ← normalizeLogged text
  return normalForm.bind ofNormalForm

/-- Whether a text stands for a formula. -/
def isValid (text : String) : Bool := (read text).isOk

/-- Whether a text stands for a formula; if it does not, the reason is put
into the log. -/
def validate (text : String) : Logged Bool := do
  match ← readLogged text with
  | .ok _ => return true
  | .error cause =>
    Logged.note (.invalid text cause)
    return false

@[simp] theorem value_readLogged (text : String) :
    (readLogged text).value = read text := rfl

@[simp] theorem value_validate (text : String) :
    (validate text).value = isValid text := by
  rw [validate, isValid, Logged.value_bind, value_readLogged]
  cases read text <;> rfl

end Formula

end DiceFormula
