import DiceFormula.Halt
import DiceFormula.Modifier

/-!
# A thrown die

A die shows a face and counts for a value, which is the face unless a modifier
has limited it. It remembers which modifiers added it, dropped it or made it
explode, and every change of its face or its value.

A die can be added once and dropped once; setting either mark again halts.

## Main results

* `Die.drop_of_isKept`, `Die.add_of_isInitial` — a mark that is not set yet
  can be set.
* `Die.isKept_iff`, `Die.isInitial_iff` — which marks are not set.
-/

namespace DiceFormula

/-- A change of the face or the value of a die. -/
structure Change where
  before : Value
  after : Value
  cause : Modifier
  deriving DecidableEq

/-- A die that has been thrown. -/
structure Die where
  /-- The face it shows. -/
  face : Value
  /-- The value it counts for. -/
  counted : Value
  /-- The modifier that threw it, if it was not thrown at first. -/
  addedBy : Option Modifier
  /-- The modifier that took it out of the total. -/
  droppedBy : Option Modifier
  /-- The modifier that threw another die because of it. -/
  explodedBy : Option Modifier
  /-- The changes made to it, the oldest first. -/
  changes : List Change
  deriving DecidableEq

namespace Die

/-- A die just thrown. -/
def ofFace (face : Value) : Die := ⟨face, face, none, none, none, []⟩

/-! ## Marks and changes -/

/-- Marks the die as thrown by `cause`. -/
def add (cause : Modifier) (die : Die) : Except Halt Die :=
  if die.addedBy.isSome then .error .addedTwice
  else .ok { die with addedBy := some cause }

/-- Takes the die out of the total. -/
def drop (cause : Modifier) (die : Die) : Except Halt Die :=
  if die.droppedBy.isSome then .error .droppedTwice
  else .ok { die with droppedBy := some cause }

/-- Marks the die as the one because of which another was thrown. -/
def explode (cause : Modifier) (die : Die) : Die :=
  { die with explodedBy := some cause }

/-- Lets the die show another face, and count for it. -/
def change (cause : Modifier) (face : Value) (die : Die) : Die :=
  { die with
    face := face
    counted := face
    changes := die.changes ++ [⟨die.face, face, cause⟩] }

/-- Lets the die count for another value, whatever its face. -/
def clamp (cause : Modifier) (value : Value) (die : Die) : Die :=
  { die with
    counted := value
    changes := die.changes ++ [⟨die.counted, value, cause⟩] }

/-! ## What a die shows of its history -/

/-- Whether the die was thrown at first and not by a modifier. -/
def isInitial (die : Die) : Bool := die.addedBy.isNone

/-- Whether a modifier threw the die. -/
def isAdditional (die : Die) : Bool := die.addedBy.isSome

/-- Whether the die is out of the total. -/
def isDropped (die : Die) : Bool := die.droppedBy.isSome

/-- Whether the die is in the total. -/
def isKept (die : Die) : Bool := die.droppedBy.isNone

/-- Whether another die was thrown because of this one. -/
def isExploded (die : Die) : Bool := die.explodedBy.isSome

/-- Whether the die was thrown again. -/
def isRerolled (die : Die) : Bool :=
  die.changes.any fun change => change.cause.isReroll

/-- Whether the die counts for something else than its face. -/
def isClamped (die : Die) : Bool := die.counted != die.face

/-- Whether anything was changed on the die. -/
def isChanged (die : Die) : Bool := !die.changes.isEmpty

/-- Dice are ordered by what they count for. -/
instance : Ord Die where
  compare a b := compare a.counted b.counted

/-- The face of a die, with a mark for each thing that happened to it: `!` if
it exploded, `d` if it was dropped, `r` if it was thrown again, and in square
brackets what it counts for if that is not its face. -/
def text (die : Die) : String :=
  Value.text die.face ++ (if die.isExploded then "!" else "") ++
    (if die.isDropped then "d" else "") ++
    (if die.isRerolled then "r" else "") ++
    (if die.isClamped then "[" ++ Value.text die.counted ++ "]" else "")

theorem isKept_iff {die : Die} : die.isKept = true ↔ die.droppedBy = none :=
  Option.isNone_iff_eq_none

theorem isInitial_iff {die : Die} : die.isInitial = true ↔ die.addedBy = none :=
  Option.isNone_iff_eq_none

theorem add_of_isInitial {die : Die} (h : die.isInitial = true)
    (cause : Modifier) :
    die.add cause = .ok { die with addedBy := some cause } := by
  rw [add, isInitial_iff.1 h]
  rfl

theorem drop_of_isKept {die : Die} (h : die.isKept = true)
    (cause : Modifier) :
    die.drop cause = .ok { die with droppedBy := some cause } := by
  rw [drop, isKept_iff.1 h]
  rfl

end Die

end DiceFormula
