import DiceFormula.Rolled
import Mathlib.Algebra.Ring.Int.Defs

/-!
# Totals of sets of dice

A set is summed from left to right in values, and a sum that is no value is
refused, also on the way to one that is. A total that there is has therefore
never been wrapped, and is the sum of the integers.

## Main results

* `Rolled.sum?_eq_some_iff` — when a list has a sum, and which.
* `Rolled.shares_eq` — what is summed is what the dice count for that have not
  been dropped.
* `Rolled.total_eq_ok_iff` — a total is the exact sum of what counts, and there is
  one if every sum on the way to it is a value.
-/

namespace DiceFormula.Rolled

/-- A list has a sum if every sum on the way to it is a value, and then it is the
sum of the integers. -/
theorem sum?_eq_some_iff {start total : Value} {vs : List Value} :
    sum? start vs = some total ↔
      (∀ k, Value.Fits (start.toInt + ((vs.take k).map Int32.toInt).sum)) ∧
        total.toInt = start.toInt + (vs.map Int32.toInt).sum := by
  induction vs generalizing start with
  | nil =>
      have hFits := start.fits_toInt
      simp [sum?, hFits, eq_comm, ← Int32.toInt_inj]
  | cons v vs ih =>
      -- The first sum is that of no value, the others are those of the rest from
      -- the next start on.
      have hSplit : (∀ k, Value.Fits
            (start.toInt + (((v :: vs).take k).map Int32.toInt).sum)) ↔
          ∀ k, Value.Fits
            (start.toInt + v.toInt + ((vs.take k).map Int32.toInt).sum) := by
        constructor
        · intro h k
          have hNext := h (k + 1)
          rwa [List.take_succ_cons, List.map_cons, List.sum_cons,
            ← Int.add_assoc] at hNext
        · intro h k
          cases k with
          | zero => simpa using start.fits_toInt
          | succ k =>
              rw [List.take_succ_cons, List.map_cons, List.sum_cons,
                ← Int.add_assoc]
              exact h k
      rw [hSplit, List.map_cons, List.sum_cons, ← Int.add_assoc, sum?]
      cases hNext : Value.narrow? (start.toInt + v.toInt) with
      | none =>
          refine iff_of_false nofun fun h => ?_
          have hFirst := h.1 0
          rw [List.take_zero, List.map_nil, List.sum_nil, Int.add_zero] at hFirst
          exact Value.narrow?_eq_none_iff.1 hNext hFirst
      | some next =>
          rw [← Value.narrow?_eq_some_iff.1 hNext]
          exact ih

/-! ## Worth -/

/-- What the dice count for that no modifier has dropped, as integers and from
left to right. -/
def shares (rolled : Rolled) : List Int :=
  (rolled.rolls.filter fun die => die.droppedBy = none).map
    fun die => die.counted.toInt

/-- What a set is worth: what all dice that have not been dropped count for
together. -/
def exactTotal (rolled : Rolled) : Int := rolled.shares.sum

/-- What the first `k` dice that have not been dropped count for together. -/
def partialSum (rolled : Rolled) (k : Nat) : Int := (rolled.shares.take k).sum

/-- The shares are the integers that the values to be summed denote. -/
theorem shares_eq (rolled : Rolled) :
    rolled.shares = rolled.countedValues.map Int32.toInt := by
  have hKept : (fun die : Die => decide (die.droppedBy = none)) = Die.isKept := by
    funext die
    rw [Bool.eq_iff_iff, decide_eq_true_iff, Die.isKept_iff]
  rw [shares, hKept, countedValues, List.map_map]
  rfl

/-- The partial sums end with the whole sum. -/
theorem partialSum_length (rolled : Rolled) :
    rolled.partialSum rolled.shares.length = rolled.exactTotal := by
  rw [partialSum, List.take_length, exactTotal]

/-- If every sum on the way to the worth of a set fits, so does the worth. -/
theorem fits_exactTotal {rolled : Rolled}
    (h : ∀ k, Value.Fits (rolled.partialSum k)) : Value.Fits rolled.exactTotal := by
  have hWhole := h rolled.shares.length
  rwa [rolled.partialSum_length] at hWhole

/-! ## Totals -/

/-- A total is the exact sum of what counts, and there is one if every sum on the
way to it is a value. -/
theorem total_eq_ok_iff {rolled : Rolled} {v : Value} :
    rolled.total = .ok v ↔
      (∀ k, Value.Fits (rolled.partialSum k)) ∧ v.toInt = rolled.exactTotal := by
  have hSum : sum? 0 rolled.countedValues = some v ↔
      (∀ k, Value.Fits (rolled.partialSum k)) ∧ v.toInt = rolled.exactTotal := by
    rw [sum?_eq_some_iff]
    simp only [Int32.toInt_zero, Int.zero_add, partialSum, exactTotal, shares_eq,
      List.map_take]
  rw [← hSum, total]
  cases sum? 0 rolled.countedValues with
  | none => exact iff_of_false nofun nofun
  | some total => rw [Except.ok.injEq, Option.some.injEq]

end DiceFormula.Rolled
