import DiceFormula.Proofs.Notation.Dice
import DiceFormula.Proofs.Notation.DiceText

/-!
# Rerolls that run together

Modifiers are written one behind the other with nothing between them, and the
first letter of each ends the one before. There is one exception: a bare `r` in
front of another reroll is read as the first half of `rr`. What such a list is
read as instead is told by `Modifier.fuse`. The fused list has the same text,
and no bare `r` is left in front of a reroll in it; so it is what is read.

## Main results

* `Modifier.text_fuse`, `Modifier.apart_fuseBehind` — a fused list is written
  like the list it was made of, and can be read.
* `Dice.round_trip_iff` — what is read back from the text of a set, and when that
  is the set itself.
* `Dice.round_trip_fails` — two rerolls that are read back as one.
-/

namespace DiceFormula

open Text Text.Reader

/-! ## Fused lists -/

namespace Modifier

/-- Throws dice that show their lowest face again, once. -/
def bareReroll : Modifier := .reroll none false

/-- The modifiers that a list is read as behind an `r` that has been taken, if
`held` says so, and not been made anything of yet. -/
def fuseBehind : (held : Bool) → List Modifier → List Modifier
  | false, [] => []
  | true, [] => [bareReroll]
  | true, .reroll condition false :: ms =>
    .reroll condition true :: fuseBehind false ms
  | true, .reroll none true :: ms => .reroll none true :: fuseBehind true ms
  | true, .reroll (some condition) true :: ms =>
    .reroll none true :: .reroll (some condition) false :: fuseBehind false ms
  | true, m :: ms => bareReroll :: m :: fuseBehind false ms
  | false, .reroll none false :: ms => fuseBehind true ms
  | false, m :: ms => m :: fuseBehind false ms

/-- The modifiers that a list is read as. -/
def fuse (ms : List Modifier) : List Modifier := fuseBehind false ms

/-- The characters of modifiers one behind the other. -/
theorem toList_join_text (ms : List Modifier) :
    (String.join (ms.map text)).toList = ms.flatMap fun m => m.text.toList := by
  rw [String.toList_join, List.flatMap_map]

/-- A repeated reroll is a single one with another `r` in front of it. -/
theorem toList_text_reroll (condition : Option Condition) :
    (reroll condition true).text.toList =
      'r' :: (reroll condition false).text.toList := by
  simp [text, String.toList_append]

theorem flatMap_fuseBehind (held : Bool) (ms : List Modifier) :
    (fuseBehind held ms).flatMap (fun m => m.text.toList) =
      (if held then ['r'] else []) ++ ms.flatMap fun m => m.text.toList := by
  have hBare : (reroll none false).text.toList = ['r'] := rfl
  fun_induction fuseBehind held ms with
  | case1 => rfl
  | case2 => rfl
  | case3 condition ms ih =>
      rw [List.flatMap_cons, List.flatMap_cons, ih, toList_text_reroll]
      rfl
  | case4 ms ih =>
      rw [List.flatMap_cons, List.flatMap_cons, ih, toList_text_reroll, hBare]
      rfl
  | case5 condition ms ih =>
      simp only [List.flatMap_cons, ih, toList_text_reroll, hBare]
      rfl
  | case6 m ms _ _ _ ih =>
      rw [List.flatMap_cons, List.flatMap_cons, List.flatMap_cons, ih, bareReroll,
        hBare]
      rfl
  | case7 ms ih =>
      rw [List.flatMap_cons, ih, hBare]
      rfl
  | case8 m ms _ ih =>
      rw [List.flatMap_cons, List.flatMap_cons, ih]
      rfl

/-- A fused list is written like the list it was made of. -/
theorem text_fuse (ms : List Modifier) :
    String.join ((fuse ms).map text) = String.join (ms.map text) := by
  apply String.toList_inj.1
  rw [toList_join_text, toList_join_text, fuse, flatMap_fuseBehind]
  rfl

/-- Behind anything but a bare reroll there may be any modifier. -/
theorem isChain_cons_of_ne {m : Modifier} {ms : List Modifier}
    (h : m ≠ bareReroll) (hMore : ms.IsChain Apart) :
    (m :: ms).IsChain Apart := by
  cases ms with
  | nil => exact .singleton m
  | cons m' ms => exact .cons_cons (fun hBare => absurd hBare h) hMore

/-- In a fused list no bare reroll is followed by another reroll. -/
theorem apart_fuseBehind (held : Bool) (ms : List Modifier) :
    (fuseBehind held ms).IsChain Apart := by
  fun_induction fuseBehind held ms with
  | case1 => exact .nil
  | case2 => exact .singleton _
  | case3 condition ms ih => exact isChain_cons_of_ne nofun ih
  | case4 ms ih => exact isChain_cons_of_ne nofun ih
  | case5 condition ms ih =>
      exact isChain_cons_of_ne nofun (isChain_cons_of_ne nofun ih)
  | case6 m ms hOnce hAgain hAgainIf ih =>
      -- The `r` that was held stays alone only in front of what is no reroll.
      have hNoReroll : m.isReroll = false := by
        cases m with
        | reroll condition again =>
            cases again with
            | false => exact absurd rfl (hOnce condition)
            | true =>
                cases condition with
                | none => exact absurd rfl hAgain
                | some c => exact absurd rfl (hAgainIf c)
        | keep | drop | atLeast | atMost | explode => rfl
      have hNotBare : m ≠ bareReroll := by
        rintro rfl
        cases hNoReroll
      exact .cons_cons (fun _ => hNoReroll) (isChain_cons_of_ne hNotBare ih)
  | case7 ms ih => exact ih
  | case8 m ms hNotBare ih => exact isChain_cons_of_ne hNotBare ih

/-- What holds of all modifiers of a list, and of rerolls whether or not they
are repeated, holds of the fused list. -/
theorem forall_fuseBehind {p : Modifier → Prop} {held : Bool}
    {ms : List Modifier} (hNone : ∀ again, p (.reroll none again))
    (hReroll : ∀ condition again again', p (.reroll condition again) →
      p (.reroll condition again'))
    (h : ∀ m ∈ ms, p m) : ∀ m ∈ fuseBehind held ms, p m := by
  fun_induction fuseBehind held ms with
  | case1 => exact nofun
  | case2 => exact List.forall_mem_singleton.2 (hNone false)
  | case3 condition ms ih =>
      obtain ⟨hFirst, hMore⟩ := List.forall_mem_cons.1 h
      exact List.forall_mem_cons.2 ⟨hReroll _ _ _ hFirst, ih hMore⟩
  | case4 ms ih =>
      obtain ⟨hFirst, hMore⟩ := List.forall_mem_cons.1 h
      exact List.forall_mem_cons.2 ⟨hFirst, ih hMore⟩
  | case5 condition ms ih =>
      obtain ⟨hFirst, hMore⟩ := List.forall_mem_cons.1 h
      exact List.forall_mem_cons.2 ⟨hNone true,
        List.forall_mem_cons.2 ⟨hReroll _ _ _ hFirst, ih hMore⟩⟩
  | case6 m ms _ _ _ ih =>
      obtain ⟨hFirst, hMore⟩ := List.forall_mem_cons.1 h
      exact List.forall_mem_cons.2 ⟨hNone false,
        List.forall_mem_cons.2 ⟨hFirst, ih hMore⟩⟩
  | case7 ms ih => exact ih (List.forall_mem_cons.1 h).2
  | case8 m ms _ ih =>
      obtain ⟨hFirst, hMore⟩ := List.forall_mem_cons.1 h
      exact List.forall_mem_cons.2 ⟨hFirst, ih hMore⟩

end Modifier

/-! ## Sets of dice -/

namespace Dice

/-- The set of dice that the text of a set is read as. -/
def fused (d : Dice) : Dice :=
  { d with modifiers := Modifier.fuse d.modifiers }

theorem text_fused (d : Dice) : d.fused.text = d.text := by
  rw [text, text, fused, Modifier.text_fuse]

/-- A set of dice can be written once it is fused, if there are dice, they have
sides, selections are of no more dice than there are and no operand is
negative. -/
theorem writable_fused {d : Dice} (hCount : 1 ≤ d.count.toNat)
    (hSides : ∀ n, d.sides = .numbered n → 1 ≤ n.toNat)
    (hSelects : ∀ m ∈ d.modifiers, m.SelectsWithin d.count)
    (hBounds : ∀ m ∈ d.modifiers, ∀ v, m.bound? = some v → 0 ≤ v.toInt) :
    d.fused.Writable where
  count_pos := hCount
  sides_pos := hSides
  selects := Modifier.forall_fuseBehind (p := fun m => m.SelectsWithin d.count)
    (fun _ => trivial) (fun _ _ _ _ => trivial) hSelects
  bounds := Modifier.forall_fuseBehind
    (p := fun m => ∀ v, m.bound? = some v → 0 ≤ v.toInt)
    (fun _ => nofun) (fun _ _ _ h => h) hBounds
  apart := Modifier.apart_fuseBehind false d.modifiers

/-- The text of a set that can be written is read as the set. -/
theorem read?_text {d : Dice} (h : d.Writable) : read? d.text = some d := by
  rw [read?_eq_some_iff, lowercase_text]
  exact derives_text h

/-- The text of a set of dice is read as the set with its rerolls fused, which
is the set itself just if no bare reroll stands in front of another reroll. -/
theorem round_trip_iff {d : Dice} (hCount : 1 ≤ d.count.toNat)
    (hSides : ∀ n, d.sides = .numbered n → 1 ≤ n.toNat)
    (hSelects : ∀ m ∈ d.modifiers, m.SelectsWithin d.count)
    (hBounds : ∀ m ∈ d.modifiers, ∀ v, m.bound? = some v → 0 ≤ v.toInt) :
    read? d.text = some d.fused ∧
      (read? d.text = some d ↔ d.modifiers.IsChain Modifier.Apart) := by
  have hFused : read? d.text = some d.fused := by
    rw [← text_fused]
    exact read?_text (writable_fused hCount hSides hSelects hBounds)
  refine ⟨hFused, ?_, ?_⟩
  · intro hSelf
    have hEq : d.fused = d := Option.some.inj (hFused.symm.trans hSelf)
    rw [← hEq]
    exact Modifier.apart_fuseBehind false d.modifiers
  · intro hApart
    exact read?_text ⟨hCount, hSides, hSelects, hBounds, hApart⟩

/-- A bare reroll in front of a repeated one, which has a condition, an
explosion and a selection. -/
def rerollsInARow : Dice :=
  ⟨4, .numbered 6, [Modifier.bareReroll, .reroll (some ⟨.lt, 3⟩) true,
    .explode (some ⟨.ge, 5⟩), .keep .highest 2]⟩

/-- Its text is `4d6rrr<3!>=5kh2`, and the condition is read as that of the
second reroll, which is not repeated any more. -/
theorem round_trip_iff_rerolls :
    read? rerollsInARow.text =
        some ⟨4, .numbered 6, [.reroll none true, .reroll (some ⟨.lt, 3⟩) false,
          .explode (some ⟨.ge, 5⟩), .keep .highest 2]⟩ ∧
      (read? rerollsInARow.text = some rerollsInARow ↔
        rerollsInARow.modifiers.IsChain Modifier.Apart) := by
  have hSelects : ∀ m ∈ rerollsInARow.modifiers,
      m.SelectsWithin rerollsInARow.count := by
    simp only [rerollsInARow, List.forall_mem_cons]
    exact ⟨trivial, trivial, trivial, ⟨by decide, by decide⟩, nofun⟩
  have hBounds : ∀ m ∈ rerollsInARow.modifiers, ∀ v, m.bound? = some v →
      0 ≤ v.toInt := by
    simp only [rerollsInARow, List.forall_mem_cons]
    refine ⟨nofun, ?_, ?_, nofun, nofun⟩
    · rintro _ ⟨⟩
      decide
    · rintro _ ⟨⟩
      decide
  have hSides : ∀ n, rerollsInARow.sides = .numbered n → 1 ≤ n.toNat := by
    rintro _ ⟨⟩
    decide
  exact round_trip_iff (d := rerollsInARow) (by decide) hSides hSelects hBounds

/-- Two dice that are thrown again twice, each time once if they show a one. -/
def rerolledTwice : Dice :=
  ⟨2, .numbered 6, [Modifier.bareReroll, Modifier.bareReroll]⟩

/-- The text of a set of dice is not always read as the set: that of two bare
rerolls is read as a single one that is repeated. -/
theorem round_trip_fails :
    read? rerolledTwice.text =
        some ⟨2, .numbered 6, [.reroll none true]⟩ ∧
      ¬ ∀ d : Dice, 1 ≤ d.count.toNat →
        (∀ n, d.sides = .numbered n → 1 ≤ n.toNat) →
        (∀ m ∈ d.modifiers, m.SelectsWithin d.count) →
        (∀ m ∈ d.modifiers, ∀ v, m.bound? = some v → 0 ≤ v.toInt) →
        read? d.text = some d := by
  have hRead : read? rerolledTwice.text =
      some ⟨2, .numbered 6, [.reroll none true]⟩ := by
    decide +kernel
  refine ⟨hRead, fun hAll => ?_⟩
  have hSides : ∀ n, rerolledTwice.sides = .numbered n → 1 ≤ n.toNat := by
    rintro _ ⟨⟩
    decide
  have hSelf := hAll rerolledTwice (by decide) hSides
    (by simp [rerolledTwice, Modifier.bareReroll, Modifier.SelectsWithin])
    (by simp [rerolledTwice, Modifier.bareReroll, Modifier.bound?])
  rw [hRead] at hSelf
  exact absurd hSelf (by decide)

end Dice

end DiceFormula
