import DiceFormula.Expr

/-!
# Expressions laid open

A view of an expression that shows every part of it by name, for those who
want to see how a formula has been read and what happened to each die. A part
is written as its name and then its contents: in parentheses, or in braces if
they have names themselves.
-/

namespace DiceFormula.Inspection

/-! ## The form -/

/-- A name with contents in parentheses. -/
def tuple (name : String) (contents : List String) : String :=
  name ++ "(" ++ ", ".intercalate contents ++ ")"

/-- A name with named contents in braces. -/
def fields (name : String) (contents : List (String × String)) : String :=
  name ++ " \x7b " ++
    ", ".intercalate (contents.map fun entry =>
      entry.1 ++ ": " ++ entry.2) ++ " \x7d"

/-- A list in square brackets. -/
def list (contents : List String) : String :=
  "[" ++ ", ".intercalate contents ++ "]"

/-- A part that may be missing. -/
def option (content : Option String) : String :=
  match content with
  | some text => tuple "Some" [text]
  | none => "None"

/-- A truth value. -/
def bool (b : Bool) : String := if b then "true" else "false"

/-! ## The parts -/

/-- The name of a comparison. -/
def comparison : Comparison → String
  | .eq => "Eq"
  | .gt => "Gt"
  | .ge => "Gte"
  | .lt => "Lt"
  | .le => "Lte"

/-- A condition. -/
def condition (c : Condition) : String :=
  tuple (comparison c.comparison) [Value.text c.bound]

/-- A modifier. -/
def modifier : Modifier → String
  | .keep .highest n => tuple "KeepHigh" [n.toNat.repr]
  | .keep .lowest n => tuple "KeepLow" [n.toNat.repr]
  | .drop .highest n => tuple "DropHigh" [n.toNat.repr]
  | .drop .lowest n => tuple "DropLow" [n.toNat.repr]
  | .atLeast bound => tuple "Min" [Value.text bound]
  | .atMost bound => tuple "Max" [Value.text bound]
  | .explode c => fields "Explode" [("cond", option (c.map condition))]
  | .reroll c recurse =>
    fields "Reroll"
      [("cond", option (c.map condition)), ("recurse", bool recurse)]

/-- What is on the sides of a die. -/
def sides : Sides → String
  | .numbered n => tuple "Num" [n.toNat.repr]
  | .fate => "Fate"
  | .percentile => "Percentile"

/-- A set of dice. -/
def dice (d : Dice) : String :=
  fields "Dice"
    [("count", d.count.toNat.repr), ("sides", sides d.sides),
      ("modifiers", list (d.modifiers.map modifier))]

/-- A change of a die. -/
def change (c : Change) : String :=
  fields "ValChange"
    [("before", Value.text c.before), ("after", Value.text c.after),
      ("cause", modifier c.cause)]

/-- A thrown die. -/
def die (d : Die) : String :=
  fields "DieRoll"
    [("val", Value.text d.face), ("counted", Value.text d.counted),
      ("added_by", option (d.addedBy.map modifier)),
      ("dropped_by", option (d.droppedBy.map modifier)),
      ("exploded_by", option (d.explodedBy.map modifier)),
      ("changes", list (d.changes.map change))]

/-- A thrown set of dice. -/
def rolled (set : Rolled) : String :=
  fields "Rolled"
    [("rolls", list (set.rolls.map die)), ("dice", dice set.dice)]

/-- The name of an operation. -/
def op : Op → String
  | .add => "Add"
  | .sub => "Sub"
  | .mul => "Mul"
  | .div => "Div"

/-- An expression, with `leaf d` for every set `d`. -/
def expr {δ : Type} (leaf : δ → String) : Expr δ → String
  | .num n => tuple "Num" [Value.text n]
  | .dice d => tuple "Dice" [leaf d]
  | .group e => tuple "Group" [expr leaf e]
  | .neg e => tuple "Neg" [expr leaf e]
  | .binary o a b => tuple (op o) [expr leaf a, expr leaf b]

end DiceFormula.Inspection
