import DiceFormula.Modifier.Selection
import Mathlib.Data.List.Forall2

/-!
# Selections drop each die once

A selection ranks the dice in the total only, so it never drops a die that has
been dropped before, and no mark stops it. What it leaves is the set as it was,
with a mark on some of the dice in the total.

## Main results

* `mem_ranking` — the dice that are ranked are the dice in the total.
* `keep_eq_ok`, `drop_eq_ok` — a selection always succeeds.
* `forall₂_dropped` — what it changes is the mark of some dice in the total.
-/

namespace DiceFormula.Selection

variable {cause : Modifier} {positions : List Nat} {rolls : List Die}

/-- The dice that are ranked are the dice in the total. -/
theorem mem_ranking {extreme : Extreme} {i : Nat} :
    i ∈ ranking extreme rolls ↔ ∃ die, rolls[i]? = some die ∧ die.isKept = true := by
  simp [ranking, List.mem_zipIdx_iff_getElem?]

/-- A list that is gone through without an error. -/
theorem mapM_eq_ok {α β ε : Type} {f : α → Except ε β} {g : α → β} {l : List α}
    (h : ∀ a ∈ l, f a = .ok (g a)) : l.mapM f = .ok (l.map g) := by
  induction l with
  | nil => rfl
  | cons a l ih =>
      rw [List.mapM_cons, h a List.mem_cons_self,
        ih fun b hb => h b (List.mem_cons_of_mem a hb)]
      rfl

/-- The set, of which the dice at the given positions have been dropped. -/
def dropped (cause : Modifier) (positions : List Nat) (rolls : List Die) :
    List Die :=
  rolls.zipIdx.map fun (die, i) =>
    if i ∈ positions then { die with droppedBy := some cause } else die

/-- The dice at these positions are in the total. -/
def AreKept (positions : List Nat) (rolls : List Die) : Prop :=
  ∀ i ∈ positions, ∀ die, rolls[i]? = some die → die.isKept = true

theorem AreKept.of_ranking {extreme : Extreme}
    (h : ∀ i ∈ positions, i ∈ ranking extreme rolls) : AreKept positions rolls := by
  intro i hi die hDie
  obtain ⟨die', hDie', hKept⟩ := mem_ranking.1 (h i hi)
  rw [hDie] at hDie'
  cases hDie'
  exact hKept

theorem dropAt_eq_ok (h : AreKept positions rolls) :
    dropAt cause positions rolls = .ok (dropped cause positions rolls) := by
  refine mapM_eq_ok ?_
  rintro ⟨die, i⟩ hMem
  have hDie : rolls[i]? = some die := List.mem_zipIdx_iff_getElem?.1 hMem
  have hLength : i < rolls.length := (List.getElem?_eq_some_iff.1 hDie).1
  by_cases hPosition : i ∈ positions
  · simp only [flags_getD, hLength, hPosition, and_self, decide_true, if_true]
    exact Die.drop_of_isKept (h i hPosition die hDie) cause
  · simp only [flags_getD, hPosition, and_false, decide_false, Bool.false_eq_true,
      if_false]

/-- What a selection changes is the mark of some dice in the total. -/
theorem forall₂_dropped (h : AreKept positions rolls) :
    List.Forall₂ (fun die die' => die' = die ∨
        die.isKept = true ∧ die' = { die with droppedBy := some cause })
      rolls (dropped cause positions rolls) := by
  refine List.forall₂_iff_get.2 ⟨by simp [dropped], fun i hi _ => ?_⟩
  by_cases hPosition : i ∈ positions
  · have hKept := h i hPosition rolls[i] (List.getElem?_eq_getElem hi)
    exact .inr ⟨hKept, by simp [dropped, hPosition]⟩
  · exact .inl (by simp [dropped, hPosition])

theorem areKept_drop (extreme : Extreme) (n : Nat) (rolls : List Die) :
    AreKept ((ranking extreme rolls).drop n) rolls :=
  .of_ranking fun _ hi => List.mem_of_mem_drop hi

theorem areKept_take (extreme : Extreme) (n : Nat) (rolls : List Die) :
    AreKept ((ranking extreme rolls).take n) rolls :=
  .of_ranking fun _ hi => List.mem_of_mem_take hi

theorem keep_eq_ok (cause : Modifier) (extreme : Extreme) (n : UInt16)
    (rolls : List Die) :
    keep cause extreme n rolls =
      .ok (dropped cause ((ranking extreme rolls).drop n.toNat) rolls) :=
  dropAt_eq_ok (areKept_drop extreme n.toNat rolls)

theorem drop_eq_ok (cause : Modifier) (extreme : Extreme) (n : UInt16)
    (rolls : List Die) :
    drop cause extreme n rolls =
      .ok (dropped cause ((ranking extreme rolls).take n.toNat) rolls) :=
  dropAt_eq_ok (areKept_take extreme n.toNat rolls)

end DiceFormula.Selection
