import DiceFormula.Value

/-!
# Conditions on a face

An exploding or rerolling modifier may say which faces it is about: a
comparison and the value to compare with, such as `>=5`. Equality is written
without a symbol, though `=` is understood as well.

## Main results

* `Comparison.ofSymbol?_symbol` — the symbol of a comparison names it.
* `Condition.acceptsOr_none_iff`, `Condition.acceptsOr_some_iff` — which faces an
  optional condition is about.
-/

namespace DiceFormula

/-- How a face is compared with the value of a condition. -/
inductive Comparison where
  | eq
  | gt
  | ge
  | lt
  | le
  deriving DecidableEq

namespace Comparison

/-- Whether `v` compares with `bound` in this way. -/
def holds : Comparison → (v bound : Value) → Bool
  | eq, v, bound => v == bound
  | gt, v, bound => bound < v
  | ge, v, bound => bound ≤ v
  | lt, v, bound => v < bound
  | le, v, bound => v ≤ bound

/-- How integers compare in this way. -/
def Relates : Comparison → (n bound : Int) → Prop
  | eq, n, bound => n = bound
  | gt, n, bound => bound < n
  | ge, n, bound => bound ≤ n
  | lt, n, bound => n < bound
  | le, n, bound => n ≤ bound

/-- Values compare as the integers they denote. -/
theorem holds_iff {c : Comparison} {v bound : Value} :
    c.holds v bound = true ↔ c.Relates v.toInt bound.toInt := by
  cases c with
  | eq => exact beq_iff_eq.trans Int32.toInt_inj.symm
  | gt | lt => exact decide_eq_true_iff.trans Int32.lt_iff_toInt_lt
  | ge | le => exact decide_eq_true_iff.trans Int32.le_iff_toInt_le

/-- The symbol that is written in front of the value. -/
def symbol : Comparison → String
  | eq => ""
  | gt => ">"
  | ge => ">="
  | lt => "<"
  | le => "<="

/-- The comparison a symbol stands for. -/
def ofSymbol? : String → Option Comparison
  | "" => some eq
  | "=" => some eq
  | ">" => some gt
  | ">=" => some ge
  | "<" => some lt
  | "<=" => some le
  | _ => none

theorem ofSymbol?_symbol (c : Comparison) : ofSymbol? c.symbol = some c := by
  cases c <;> rfl

end Comparison

/-- A condition on the face of a die. -/
structure Condition where
  comparison : Comparison
  bound : Value
  deriving DecidableEq

namespace Condition

/-- Whether a face meets the condition. -/
def accepts (condition : Condition) (v : Value) : Bool :=
  condition.comparison.holds v condition.bound

/-- The text of the condition after the letters of its modifier. -/
def text (condition : Condition) : String :=
  condition.comparison.symbol ++ Value.text condition.bound

end Condition

/-- Whether a face meets an optional condition; without one it has to be the
`usual` face. -/
def Condition.acceptsOr (usual : Value) : Option Condition → Value → Bool
  | some condition, v => condition.accepts v
  | none, v => v == usual

namespace Condition

variable {usual v : Value}

theorem acceptsOr_none_iff : acceptsOr usual none v = true ↔ v = usual :=
  beq_iff_eq

theorem acceptsOr_some_iff {condition : Condition} :
    acceptsOr usual (some condition) v = true ↔
      condition.comparison.Relates v.toInt condition.bound.toInt :=
  Comparison.holds_iff

end Condition

end DiceFormula
