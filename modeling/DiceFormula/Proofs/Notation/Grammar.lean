import DiceFormula.Expr
import DiceFormula.Proofs.Text.Reader

/-!
# The grammar of the notation

The notation as relations between texts and what they stand for, one
relation per nonterminal and one constructor per rule. Nothing here says how
a text is read: sums and products are defined from the left as they associate,
without a fixed number of operands, and no rule comes before another one.

The texts of the nonterminals are concatenated; blanks have a place of their
own in the rules for operators, signs and operands, and none anywhere else.

The numeric limits are partly in the types: a `Value` denotes at most
`2 ^ 31 - 1` and a count at most `65535`, so a numeral that denotes more than
that derives nothing.
-/

namespace DiceFormula

open Text Text.Reader

/-! ## Numbers -/

/-- The decimal notation of numbers: a single `0`, or digits of which the
first is another one. -/
inductive IsNumeral : List Char → Nat → Prop
  | zero : IsNumeral ['0'] 0
  | digits {c : Char} {s : List Char} (hFirst : c ≠ '0')
      (hDigits : ∀ d ∈ c :: s, d.isDigit = true) :
      IsNumeral (c :: s) (Nat.ofDigitChars 10 (c :: s) 0)

/-- The numerals of values. -/
def Value.Derives (s : List Char) (v : Value) : Prop :=
  ∃ n, IsNumeral s n ∧ v.toInt = n

/-- The numerals of counts; a count that is left out is one. -/
def CountDerives (s : List Char) (count : UInt16) : Prop :=
  ∃ n, OrNothing IsNumeral s n ∧ count.toNat = n.getD 1

/-! ## Modifiers -/

/-- The symbols of comparisons; equality needs none. -/
inductive Comparison.Derives : List Char → Comparison → Prop
  | ge : Derives ['>', '='] .ge
  | le : Derives ['<', '='] .le
  | gt : Derives ['>'] .gt
  | lt : Derives ['<'] .lt
  | eq : Derives ['='] .eq
  | unwritten : Derives [] .eq

/-- Conditions are a comparison and a value. -/
inductive Condition.Derives : List Char → Condition → Prop
  | mk {s t : List Char} {comparison : Comparison} {bound : Value}
      (hComparison : comparison.Derives s) (hBound : Value.Derives t bound) :
      Derives (s ++ t) ⟨comparison, bound⟩

/-- The modifiers; `k` stands for `kh`. -/
inductive Modifier.Derives : List Char → Modifier → Prop
  | keepHighest {s : List Char} {n : UInt16} (h : CountDerives s n) :
      Derives ('k' :: 'h' :: s) (.keep .highest n)
  | keepLowest {s : List Char} {n : UInt16} (h : CountDerives s n) :
      Derives ('k' :: 'l' :: s) (.keep .lowest n)
  | keep {s : List Char} {n : UInt16} (h : CountDerives s n) :
      Derives ('k' :: s) (.keep .highest n)
  | dropHighest {s : List Char} {n : UInt16} (h : CountDerives s n) :
      Derives ('d' :: 'h' :: s) (.drop .highest n)
  | dropLowest {s : List Char} {n : UInt16} (h : CountDerives s n) :
      Derives ('d' :: 'l' :: s) (.drop .lowest n)
  | explode {s : List Char} {condition : Option Condition}
      (h : OrNothing Condition.Derives s condition) :
      Derives ('!' :: s) (.explode condition)
  | rerollOnce {s : List Char} {condition : Option Condition}
      (h : OrNothing Condition.Derives s condition) :
      Derives ('r' :: s) (.reroll condition false)
  | rerollAgain {s : List Char} {condition : Option Condition}
      (h : OrNothing Condition.Derives s condition) :
      Derives ('r' :: 'r' :: s) (.reroll condition true)
  | atLeast {s : List Char} {bound : Value} (h : Value.Derives s bound) :
      Derives ('m' :: 'i' :: 'n' :: s) (.atLeast bound)
  | atMost {s : List Char} {bound : Value} (h : Value.Derives s bound) :
      Derives ('m' :: 'a' :: 'x' :: s) (.atMost bound)

/-- Modifiers one after the other. Two letters `r` in a row belong to one
modifier, so an `r` alone is never followed by another one. -/
inductive Modifier.ListDerives : List Char → List Modifier → Prop
  | nil : ListDerives [] []
  | cons {s t : List Char} {m : Modifier} {ms : List Modifier}
      (h : m.Derives s) (hApart : s = ['r'] → t.head? ≠ some 'r')
      (hMore : ListDerives t ms) : ListDerives (s ++ t) (m :: ms)

/-! ## Sets of dice -/

/-- What is on the sides; a numbered die has at least one. -/
inductive Sides.Derives : List Char → Sides → Prop
  | fate : Derives ['f'] .fate
  | percentile : Derives ['%'] .percentile
  | numbered {s : List Char} {n : UInt16} (h : IsNumeral s n.toNat)
      (hPos : 1 ≤ n.toNat) : Derives s (.numbered n)

/-- A selection asks for no more dice than there are, and for one at least. The
other modifiers ask for no number of dice. -/
def Modifier.SelectsWithin (count : UInt16) : Modifier → Prop
  | keep _ n => 1 ≤ n.toNat ∧ n.toNat ≤ count.toNat
  | drop _ n => 1 ≤ n.toNat ∧ n.toNat ≤ count.toNat
  | _ => True

/-- Sets of dice. -/
inductive Dice.Derives : List Char → Dice → Prop
  | mk {s t u : List Char} {count : UInt16} {sides : Sides}
      {modifiers : List Modifier} (hCount : CountDerives s count)
      (hPos : 1 ≤ count.toNat) (hSides : sides.Derives t)
      (hModifiers : Modifier.ListDerives u modifiers)
      (hSelect : ∀ m ∈ modifiers, m.SelectsWithin count) :
      Derives (s ++ 'd' :: (t ++ u)) ⟨count, sides, modifiers⟩

/-! ## Expressions -/

namespace Expr

/-- The expressions that are a `0` under signs and parentheses. -/
inductive IsWrittenZero : Expr Dice → Prop
  | zero : IsWrittenZero (.num 0)
  | group {e : Expr Dice} (h : IsWrittenZero e) : IsWrittenZero (.group e)
  | neg {e : Expr Dice} (h : IsWrittenZero e) : IsWrittenZero (.neg e)

/-- The levels of the grammar, from the loosest to the closest. -/
inductive Level where
  | sum
  | product
  | signed
  | atom
  deriving DecidableEq

/-- What expression a text derives at a level of the grammar. -/
inductive Derives : Level → List Char → Expr Dice → Prop
  | dice {s : List Char} {d : Dice} (h : d.Derives s) :
      Derives .atom s (.dice d)
  | num {s : List Char} {n : Value} (h : Value.Derives s n) :
      Derives .atom s (.num n)
  | group {s : List Char} {e : Expr Dice} (h : Derives .sum s e) :
      Derives .atom ('(' :: (s ++ [')'])) (.group e)
  | padded {s t : List Char} {e : Expr Dice} (h : Derives .atom s e)
      (hBlanks : IsPadded s t) : Derives .signed t e
  | neg {s t : List Char} {e : Expr Dice} (hSign : IsPadded ['-'] s)
      (h : Derives .signed t e) : Derives .signed (s ++ t) (.neg e)
  | signed {s : List Char} {e : Expr Dice} (h : Derives .signed s e) :
      Derives .product s e
  | mul {s o t : List Char} {a b : Expr Dice} (ha : Derives .product s a)
      (hSymbol : IsPadded ['*'] o) (hb : Derives .signed t b) :
      Derives .product (s ++ o ++ t) (.binary .mul a b)
  | div {s o t : List Char} {a b : Expr Dice} (ha : Derives .product s a)
      (hSymbol : IsPadded ['/'] o) (hb : Derives .signed t b)
      (hZero : ¬ b.IsWrittenZero) :
      Derives .product (s ++ o ++ t) (.binary .div a b)
  | product {s : List Char} {e : Expr Dice} (h : Derives .product s e) :
      Derives .sum s e
  | add {s o t : List Char} {a b : Expr Dice} (ha : Derives .sum s a)
      (hSymbol : IsPadded ['+'] o) (hb : Derives .product t b) :
      Derives .sum (s ++ o ++ t) (.binary .add a b)
  | sub {s o t : List Char} {a b : Expr Dice} (ha : Derives .sum s a)
      (hSymbol : IsPadded ['-'] o) (hb : Derives .product t b) :
      Derives .sum (s ++ o ++ t) (.binary .sub a b)

end Expr

end DiceFormula
