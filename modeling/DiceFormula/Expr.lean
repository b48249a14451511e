import DiceFormula.Rolled

/-!
# Expressions

An expression combines numbers and sets of dice. One type of tree serves both
before and after the dice are thrown: the dice of an `Expr Dice` are described
and those of an `Evaluated` lie on the table.

Parentheses that were written are nodes of the tree. Where a tree needs more
of them than it has, its layout adds them; `Kind.needsParens` says where.
-/

namespace DiceFormula

/-- The four operations on two values. -/
inductive Op where
  | add
  | sub
  | mul
  | div
  deriving DecidableEq

/-- An expression over sets of dice of type `δ`. -/
inductive Expr (δ : Type) where
  | num (n : Value)
  | dice (d : δ)
  /-- An expression in parentheses. -/
  | group (e : Expr δ)
  | neg (e : Expr δ)
  | binary (op : Op) (a b : Expr δ)
  deriving DecidableEq

/-- An expression whose dice have been thrown. -/
abbrev Evaluated := Expr Rolled

/-! ## Kinds of expressions -/

/-- How closely the parts of an expression hang together. -/
inductive Kind where
  | value
  | unary
  | additive
  | multiplicative
  deriving DecidableEq

/-- Whether expressions of this kind have two operands. -/
def Kind.isBinary : Kind → Bool
  | value => false
  | unary => false
  | additive => true
  | multiplicative => true

/-- Whether an operand has to be put into parentheses in order to stay the
operand of its parent: sums do below a sign or a product, products do below a
sign, and the right operand does where the parent would otherwise take only
the first half of it. -/
def Kind.needsParens (parent operand : Kind) (onRight : Bool) : Bool :=
  match parent, operand with
  | multiplicative, additive => true
  | unary, additive => true
  | unary, multiplicative => true
  | _, _ => onRight && parent == operand && parent.isBinary

namespace Op

/-- The sign of an operation. -/
def symbol : Op → String
  | add => "+"
  | sub => "-"
  | mul => "*"
  | div => "/"

/-- The kind of expression an operation makes. -/
def kind : Op → Kind
  | add => .additive
  | sub => .additive
  | mul => .multiplicative
  | div => .multiplicative

/-- Whether a chain of the operation can be read from the left only. -/
def isLeftAssocOnly : Op → Bool
  | add => false
  | sub => true
  | mul => false
  | div => true

end Op

namespace Expr

variable {δ ε : Type}

/-- The kind of an expression. -/
def kind : Expr δ → Kind
  | num _ => .value
  | dice _ => .value
  | group _ => .value
  | neg _ => .unary
  | binary op _ _ => op.kind

/-- Whether the expression is a difference or a quotient. -/
def isLeftAssocOnly : Expr δ → Bool
  | binary op _ _ => op.isLeftAssocOnly
  | _ => false

theorem isLeftAssocOnly_iff {e : Expr δ} :
    e.isLeftAssocOnly = true ↔
      ∃ a b, e = binary .sub a b ∨ e = binary .div a b := by
  cases e with
  | num | dice | group | neg => simp [isLeftAssocOnly]
  | binary op a b => cases op <;> simp [isLeftAssocOnly, Op.isLeftAssocOnly]

/-! ## Traversals -/

/-- The sets of dice, from left to right. -/
def sets : Expr δ → List δ
  | num _ => []
  | dice d => [d]
  | group e => e.sets
  | neg e => e.sets
  | binary _ a b => a.sets ++ b.sets

/-- Puts `f d` in the place of every set `d`, going from left to right. -/
def mapM {m : Type → Type} [Monad m] (f : δ → m ε) : Expr δ → m (Expr ε)
  | num n => pure (num n)
  | dice d => return dice (← f d)
  | group e => return group (← e.mapM f)
  | neg e => return neg (← e.mapM f)
  | binary op a b => do
    let a' ← a.mapM f
    let b' ← b.mapM f
    return binary op a' b'

end Expr

/-- Whether the expression is worth the same whenever it is evaluated, because
all its dice have one side. -/
def Expr.isDeterministic (e : Expr Dice) : Bool :=
  e.sets.all fun dice => dice.sides == .numbered 1

end DiceFormula
