import DiceFormula.Dice.Reading
import DiceFormula.Expr

/-!
# Reading expressions

Sums are made of products, products of signed operands, and operands are sets
of dice, numbers and sums in parentheses. Chains of operations are read from
the left. Blanks may stand around operators, signs and operands.

A division by a zero that is written out is refused, whatever signs and
parentheses stand around it.
-/

namespace DiceFormula.Expr

open Text Text.Reader

/-- Whether the expression is a zero that is written out. -/
def isLiteralZero : Expr Dice → Bool
  | num n => n == 0
  | group e => e.isLiteralZero
  | neg e => e.isLiteralZero
  | _ => false

/-! ## Chains of operations -/

/-- The quotients and products of `e` with the given operands, from left to
right, unless one of them is divided by a zero that is written out. -/
def product? (e : Expr Dice) : List (Op × Expr Dice) → Option (Expr Dice)
  | [] => some e
  | (op, operand) :: rest =>
    if op == .div && operand.isLiteralZero then none
    else product? (binary op e operand) rest

/-- The sums and differences of `e` with the given operands, from left to
right. -/
def sum (e : Expr Dice) (rest : List (Op × Expr Dice)) : Expr Dice :=
  rest.foldl (fun left (op, operand) => binary op left operand) e

/-! ## Readers -/

/-- Takes one of two operators. -/
def operator (first second : Op) : Reader Op :=
  (padded (exactly first.symbol) *> pure first) <|>
    (padded (exactly second.symbol) *> pure second)

/-- Takes the further operands of a chain, each with its operator. -/
def furtherOperands (op : Reader Op) (operand : Reader (Expr Dice)) :
    Reader (List (Op × Expr Dice)) :=
  many do
    let o ← op
    let e ← operand
    return (o, e)

/-- Takes an operand, in which `inner` takes what is in parentheses. -/
def atomReader (inner : Reader (Expr Dice)) : Reader (Expr Dice) :=
  padded <|
    (dice <$> Dice.reader) <|> (num <$> Value.reader) <|> do
      exactly "("
      let e ← inner
      exactly ")"
      return group e

/-- Takes an operand with the minus signs in front of it. -/
def unaryReader (inner : Reader (Expr Dice)) : Reader (Expr Dice) := do
  let signs ← many (padded (exactly "-"))
  let e ← atomReader inner
  return signs.foldr (fun _ e => neg e) e

/-- Takes a product. -/
def productReader (inner : Reader (Expr Dice)) : Reader (Expr Dice) := do
  let first ← unaryReader inner
  let rest ← furtherOperands (operator .mul .div) (unaryReader inner)
  ofOption (product? first rest)

/-- Takes a sum. -/
def sumReader (inner : Reader (Expr Dice)) : Reader (Expr Dice) := do
  let first ← productReader inner
  let rest ← furtherOperands (operator .add .sub) (productReader inner)
  return sum first rest

/-- Takes an expression with parentheses nested less than `depth` deep. -/
def readerWithin : (depth : Nat) → Reader (Expr Dice)
  | 0 => failure
  | depth + 1 => sumReader (readerWithin depth)

/-- Takes an expression. Every level of parentheses takes a character, so the
text cannot be nested as deep as it is long. -/
def reader : Reader (Expr Dice) := fun s => readerWithin (s.length + 1) s

/-- The expression a lowercase text denotes. -/
def readLowercase? (text : String) : Option (Expr Dice) :=
  readAll? reader text.toList

/-- The expression a text denotes, in capital or small letters. -/
def read? (text : String) : Option (Expr Dice) :=
  readAll? reader (lowercase text.toList)

end DiceFormula.Expr
