import DiceFormula.Expr

/-!
# The layout of expressions

An expression is written in two forms. Its `text` is one line. Its `groups`
are the same line cut up for a reader who wants to mark the operands: one
entry per number or set of dice and one per operator between them, with signs
and parentheses attached to the operands they stand at.

How a set of dice is written is left open, so that the canonical notation of a
formula and the breakdown of a roll have one layout.
-/

namespace DiceFormula

/-- The text, in parentheses if `wrap` says so. -/
def parenthesize (wrap : Bool) (text : String) : String :=
  if wrap then "(" ++ text ++ ")" else text

/-! ## Groups -/

/-- Changes the last entry. -/
def onLast (f : String → String) : List String → List String
  | [] => []
  | [group] => [f group]
  | group :: next :: groups => group :: onLast f (next :: groups)

/-- Puts the first entry behind `start` and the last one before `stop`. -/
def surround (start stop : String) (groups : List String) : List String :=
  onLast (· ++ stop) (groups.modifyHead (start ++ ·))

/-- The groups, in parentheses if `wrap` says so. -/
def parenthesizeGroups (wrap : Bool) (groups : List String) : List String :=
  if wrap then surround "(" ")" groups else groups

namespace Expr

variable {δ : Type}

/-- The expression in one line, with `leaf d` for every set `d`. -/
def text (leaf : δ → String) : Expr δ → String
  | num n => Value.text n
  | dice d => leaf d
  | group e => parenthesize true (e.text leaf)
  | neg e =>
    "-" ++ parenthesize (Kind.unary.needsParens e.kind false) (e.text leaf)
  | binary op a b =>
    parenthesize (op.kind.needsParens a.kind false) (a.text leaf) ++
      " " ++ op.symbol ++ " " ++
      parenthesize (op.kind.needsParens b.kind true) (b.text leaf)

/-- The expression cut up into operands and operators, with `leaf d` for every
set `d`. -/
def groups (leaf : δ → String) : Expr δ → List String
  | num n => [Value.text n]
  | dice d => [leaf d]
  | group e => parenthesizeGroups true (e.groups leaf)
  | neg e =>
    surround "-" "" (parenthesizeGroups
      (Kind.unary.needsParens e.kind false) (e.groups leaf))
  | binary op a b =>
    parenthesizeGroups (op.kind.needsParens a.kind false) (a.groups leaf) ++
      op.symbol ::
      parenthesizeGroups (op.kind.needsParens b.kind true) (b.groups leaf)

end Expr

/-- The canonical notation of an expression. -/
def Expr.canonical (e : Expr Dice) : String := e.text Dice.text

/-- The breakdown of an evaluated expression, in which no set lists more dice
than the limit. -/
def Evaluated.groups (limit : Option Nat) (e : Evaluated) : List String :=
  Expr.groups (Rolled.describe limit) e

/-- The breakdown in one line. -/
def Evaluated.describe (limit : Option Nat) (e : Evaluated) : String :=
  " ".intercalate (Evaluated.groups limit e)

end DiceFormula
