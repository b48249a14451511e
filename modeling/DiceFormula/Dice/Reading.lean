import DiceFormula.Dice
import DiceFormula.Text.Lowercase
import DiceFormula.Text.Numeral

/-!
# Reading the notation of a set of dice

The notation is lowercase throughout and has no blanks: an optional count, the
letter `d`, the sides, and the modifiers. The count is one if it is left out,
and so is the number of dice that a selection is about; a selection has to be
about at least one die and no more than the count.

The order of the alternatives matters where one modifier is spelled like the
beginning of another: `kh` comes before `k`, and `rr` is never two rerolls.
-/

namespace DiceFormula

open Text Text.Reader

/-! ## Numbers -/

/-- The count that denotes `n`, if there is one. -/
def narrowCount? (n : Nat) : Option UInt16 :=
  if n < 0x10000 then some n.toUInt16 else none

/-- Takes the numeral of a value. -/
def Value.reader : Reader Value := do
  let n ← numeral
  ofOption (Value.narrow? n)

/-- Takes a numeral that may be left out, and is one in that case. -/
def countReader : Reader UInt16 := do
  let n ← optional numeral
  ofOption (narrowCount? (n.getD 1))

/-! ## Modifiers -/

/-- Takes the symbol of a comparison. -/
def Comparison.reader : Reader Comparison :=
  (exactly ">=" *> pure .ge) <|> (exactly "<=" *> pure .le) <|>
    (exactly ">" *> pure .gt) <|> (exactly "<" *> pure .lt) <|>
    (exactly "=" *> pure .eq)

/-- Takes a condition; without a symbol it is an equality. -/
def Condition.reader : Reader Condition := do
  let comparison ← Comparison.reader <|> pure .eq
  let bound ← Value.reader
  return ⟨comparison, bound⟩

/-- Takes a modifier. -/
def Modifier.reader : Reader Modifier :=
  (exactly "kh" *> keep .highest <$> countReader) <|>
    (exactly "kl" *> keep .lowest <$> countReader) <|>
    (exactly "k" *> keep .highest <$> countReader) <|>
    (exactly "dh" *> drop .highest <$> countReader) <|>
    (exactly "dl" *> drop .lowest <$> countReader) <|>
    (exactly "rr" *> (reroll · true) <$> optional Condition.reader) <|>
    (exactly "r" *> (reroll · false) <$> optional Condition.reader) <|>
    (exactly "!" *> explode <$> optional Condition.reader) <|>
    (exactly "min" *> atLeast <$> Value.reader) <|>
    (exactly "max" *> atMost <$> Value.reader)

/-! ## Sets of dice -/

/-- Takes what is on the sides; a numbered die has at least one. -/
def Sides.reader : Reader Sides :=
  (exactly "f" *> pure .fate) <|> (exactly "%" *> pure .percentile) <|> do
    let n ← numeral
    ofOption ((narrowCount? n).bind fun n =>
      if n = 0 then none else some (.numbered n))

namespace Dice

/-- Whether there are dice at all and no selection asks for none or for more
of them than there are. -/
def isWellFormed (dice : Dice) : Bool :=
  dice.count != 0 && dice.modifiers.all fun m =>
    match m.selectionCount? with
    | some n => n != 0 && n ≤ dice.count
    | none => true

/-- Takes a set of dice. -/
def reader : Reader Dice := do
  let count ← optional numeral
  exactly "d"
  let sides ← Sides.reader
  let modifiers ← many Modifier.reader
  let count ← ofOption (narrowCount? (count.getD 1))
  ofOption (some ⟨count, sides, modifiers⟩ |>.filter isWellFormed)

/-- The set of dice a lowercase text denotes. -/
def readLowercase? (text : String) : Option Dice :=
  readAll? reader text.toList

/-- The set of dice a text denotes, in capital or small letters. -/
def read? (text : String) : Option Dice :=
  readAll? reader (lowercase text.toList)

end Dice

end DiceFormula
