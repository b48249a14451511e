import DiceFormula.Text.Blank

/-!
# Readers

A reader takes a piece from the front of a text and leaves the rest, or fails
and takes nothing: an alternative starts again at the same place. The
sequencing and the alternatives are those of `StateT` over `Option`; this
module adds the pieces.

## Main results

* `many_of_none`, `many_of_some` — the two ways in which a repetition goes on.
-/

namespace DiceFormula.Text

/-- Takes a value of type `α` from the front of a text. -/
abbrev Reader (α : Type) := StateT (List Char) Option α

namespace Reader

/-- Takes exactly the given text. -/
def exactly (text : String) : Reader Unit := fun s =>
  (text.toList.isPrefixOf? s).map fun rest => ((), rest)

/-- Takes nothing and answers the given value, or fails if there is none. -/
def ofOption {α : Type} (value : Option α) : Reader α := fun s =>
  value.map fun a => (a, s)

/-- Takes all blanks at the front, of which there may be none. -/
def blanks : Reader Unit := fun s => some ((), s.dropWhile isBlank)

/-- Takes what `item` takes together with the blanks around it. -/
def padded {α : Type} (item : Reader α) : Reader α := do
  blanks
  let a ← item
  blanks
  return a

/-- Takes `item` as often as it can be taken. A turn that would take nothing
ends the repetition, so that there is always an end. -/
def many {α : Type} (item : Reader α) : Reader (List α) := fun s =>
  match item s with
  | none => some ([], s)
  | some (a, rest) =>
    if rest.length < s.length then
      match many item rest with
      | none => none
      | some (as, rest') => some (a :: as, rest')
    else
      some ([], s)
termination_by s => s.length

/-- The value of a text that `item` takes as a whole. -/
def readAll? {α : Type} (item : Reader α) (s : List Char) : Option α :=
  match item s with
  | some (a, []) => some a
  | _ => none

theorem many_of_none {α : Type} {item : Reader α} {s : List Char}
    (h : item s = none) : many item s = some ([], s) := by
  rw [many, h]

theorem many_of_some {α : Type} {item : Reader α} {s rest rest' : List Char}
    {a : α} {as : List α} (h : item s = some (a, rest))
    (hRest : rest.length < s.length) (hMany : many item rest = some (as, rest')) :
    many item s = some (a :: as, rest') := by
  rw [many, h]
  simp [hRest, hMany]

theorem readAll?_eq_some_iff {α : Type} {item : Reader α} {s : List Char}
    {a : α} : readAll? item s = some a ↔ item s = some (a, []) := by
  unfold readAll?
  split <;> simp_all

end Reader

end DiceFormula.Text
