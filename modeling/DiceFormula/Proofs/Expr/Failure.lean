import DiceFormula.Expr.Reading
import DiceFormula.Proofs.Expr.Exactness

/-!
# Why a calculation fails

An operation whose operands have values can fail for two reasons: it is a
division by zero, or it comes to an integer that no value denotes. The errors
are meant to tell the two apart. They do so except for a single pair of values:
the lowest value divided by minus one comes to an integer that is out of range,
and this is reported as if there were nothing to divide by.

## Main results

* `Value.fits_tdiv` — every other quotient of two values is a value.
* `classified_iff` — an error tells its reason, except for that of this pair.
-/

namespace DiceFormula

/-- Of all quotients of values only that of the lowest value and minus one may be
out of range. -/
theorem Value.fits_tdiv {x y : Value}
    (h : ¬ (x = Int32.minValue ∧ y = -1)) : Fits (x.toInt.tdiv y.toInt) := by
  obtain ⟨hLow, hHigh⟩ := x.fits_toInt
  by_cases hMinusOne : y = -1
  · -- The quotient is the negated value, which fits unless the value is the lowest.
    have hNotLowest : x.toInt ≠ -0x80000000 := by
      intro hLowest
      exact h ⟨Int32.toInt_inj.1 hLowest, hMinusOne⟩
    have hDivisor : y.toInt = -1 := by rw [hMinusOne]; rfl
    rw [hDivisor, Int.tdiv_neg, Int.tdiv_one]
    exact ⟨by omega, by omega⟩
  · have hDivisor : y.toInt ≠ -1 := fun hEq => hMinusOne (Int32.toInt_inj.1 hEq)
    have hSize : (x.toInt.tdiv y.toInt).natAbs = x.toInt.natAbs / y.toInt.natAbs :=
      Int.natAbs_tdiv ..
    by_cases hOne : y.toInt = 1
    · rw [hOne, Int.tdiv_one]
      exact x.fits_toInt
    · -- The divisor is zero, or dividing by it halves the value at least.
      have hHalf : x.toInt.natAbs / y.toInt.natAbs ≤ x.toInt.natAbs / 2 := by
        by_cases hZero : y.toInt = 0
        · simp [hZero]
        · exact Nat.div_le_div_left (by omega) (by decide)
      exact ⟨by omega, by omega⟩

namespace Expr

/-! ## Reasons -/

/-- The integer an operation comes to from the values of its operands. A division
by zero comes to none. -/
inductive ComesTo : Evaluated → Int → Prop
  | neg {e : Evaluated} {x : Value} (h : Evaluated.calculate e = .ok x) :
      ComesTo (.neg e) (-x.toInt)
  | binary {op : Op} {a b : Evaluated} {x y : Value} {n : Int}
      (hLeft : Evaluated.calculate a = .ok x)
      (hRight : Evaluated.calculate b = .ok y)
      (h : op.result? x.toInt y.toInt = some n) : ComesTo (.binary op a b) n

/-- The part is a division, and its divisor has come to zero. -/
def DividesByZero (node : Evaluated) : Prop :=
  ∃ a b, node = .binary .div a b ∧ Evaluated.calculate b = .ok 0

/-- The part is a division of the lowest value by minus one. -/
def DividesLowest (node : Evaluated) : Prop :=
  ∃ a b, node = .binary .div a b ∧
    Evaluated.calculate a = .ok Int32.minValue ∧ Evaluated.calculate b = .ok (-1)

/-- The error tells the reason: it is a division error just if the part is a
division by zero, and an overflow if the part comes to an integer that is out of
range. -/
structure Classified (err : CalcError) : Prop where
  division : err = .division err.place ↔ DividesByZero err.place
  overflow : ∀ n, ComesTo err.place n → ¬ Value.Fits n →
    err = .overflow err.place

/-! ## Operations -/

theorem dividesByZero_iff {op : Op} {a b : Evaluated} {y : Value}
    (h : Evaluated.calculate b = .ok y) :
    DividesByZero (.binary op a b) ↔ op = .div ∧ y = 0 := by
  constructor
  · rintro ⟨_, _, ⟨⟩, hZero⟩
    rw [h] at hZero
    exact ⟨rfl, Except.ok.inj hZero⟩
  · rintro ⟨rfl, rfl⟩
    exact ⟨a, b, rfl, h⟩

theorem dividesLowest_iff {op : Op} {a b : Evaluated} {x y : Value}
    (hLeft : Evaluated.calculate a = .ok x)
    (hRight : Evaluated.calculate b = .ok y) :
    DividesLowest (.binary op a b) ↔ op = .div ∧ x = Int32.minValue ∧ y = -1 := by
  constructor
  · rintro ⟨_, _, ⟨⟩, hLowest, hMinusOne⟩
    rw [hLeft] at hLowest
    rw [hRight] at hMinusOne
    exact ⟨rfl, Except.ok.inj hLowest, Except.ok.inj hMinusOne⟩
  · rintro ⟨rfl, rfl, rfl⟩
    exact ⟨a, b, rfl, hLeft, hRight⟩

/-- If an operation has no result, the integer it comes to is out of range. -/
theorem not_fits_of_apply?_eq_none {op : Op} {x y : Value} {n : Int}
    (h : op.apply? x y = none) (hResult : op.result? x.toInt y.toInt = some n) :
    ¬ Value.Fits n := by
  unfold Op.apply? at h
  rw [hResult, Option.bind_some] at h
  exact Value.narrow?_eq_none_iff.1 h

/-- A division without a result is one by zero, or that of the lowest value by
minus one. -/
theorem div_cases {x y : Value} (h : Op.div.apply? x y = none) :
    y = 0 ∨ x = Int32.minValue ∧ y = -1 := by
  by_cases hZero : y.toInt = 0
  · exact .inl (Int32.toInt_inj.1 hZero)
  · have hResult : Op.div.result? x.toInt y.toInt = some (x.toInt.tdiv y.toInt) :=
      if_neg hZero
    right
    by_contra hPair
    exact not_fits_of_apply?_eq_none h hResult (Value.fits_tdiv hPair)

/-! ## Errors -/

/-- The error of an operation tells its reason, except for that of the lowest
value divided by minus one. -/
theorem classified_ofOp_iff {op : Op} {a b : Evaluated} {x y : Value}
    (hLeft : Evaluated.calculate a = .ok x)
    (hRight : Evaluated.calculate b = .ok y) (h : op.apply? x y = none) :
    Classified (.ofOp op (.binary op a b)) ↔ ¬ DividesLowest (.binary op a b) := by
  have hPlace := CalcError.place_ofOp op (.binary op a b)
  by_cases hDiv : op = .div
  · subst hDiv
    rw [dividesLowest_iff hLeft hRight]
    rcases div_cases h with rfl | ⟨rfl, rfl⟩
    · -- There is no exact result that could be out of range.
      refine iff_of_true ⟨iff_of_true rfl ⟨a, b, rfl, hRight⟩, ?_⟩
        fun hPair => absurd hPair.2.2 (by decide)
      intro n hComes
      cases hComes with
      | binary _ hRight' hResult =>
          rw [hRight] at hRight'
          cases hRight'
          cases hResult
    · refine iff_of_false ?_ (by simp)
      intro hClassified
      have hZero := hClassified.division.1 rfl
      rw [hPlace, dividesByZero_iff hRight] at hZero
      exact absurd hZero.2 (by decide)
  · have hError : CalcError.ofOp op (.binary op a b) =
        .overflow (.binary op a b) := by
      cases op with
      | add | sub | mul => rfl
      | div => exact absurd rfl hDiv
    rw [dividesLowest_iff hLeft hRight]
    refine iff_of_true ⟨?_, ?_⟩ fun hPair => hDiv hPair.1
    · rw [hPlace, dividesByZero_iff hRight, hError]
      exact iff_of_false nofun fun hZero => hDiv hZero.1
    · rw [hPlace, hError]
      exact fun _ _ _ => rfl

/-- An error tells its reason, except for that of the lowest value divided by
minus one. -/
theorem FailsAlone.classified {e : Evaluated} {err : CalcError}
    (h : FailsAlone e err) : Classified err ↔ ¬ DividesLowest e := by
  cases h with
  | dice =>
      refine iff_of_true ⟨iff_of_false nofun ?_, nofun⟩ ?_
      · rintro ⟨_, _, ⟨⟩, _⟩
      · rintro ⟨_, _, ⟨⟩, _⟩
  | neg =>
      refine iff_of_true ⟨iff_of_false nofun ?_, fun _ _ _ => rfl⟩ ?_
      · rintro ⟨_, _, ⟨⟩, _⟩
      · rintro ⟨_, _, ⟨⟩, _⟩
  | binary hLeft hRight hNone => exact classified_ofOp_iff hLeft hRight hNone

/-- The error of a calculation arises at the first part that fails though its
operands have values. It is a division error just if this part is a division by
zero, and it is an overflow if the part comes to an integer that is out of range,
with one exception: if the lowest value is divided by minus one, which comes to an
integer that is out of range, there is a division error. -/
theorem classified_iff {e : Evaluated} {err : CalcError}
    (h : Evaluated.calculate e = .error err) :
    FailsFirst e err ∧ (Classified err ↔ ¬ DividesLowest err.place) ∧
      (DividesLowest err.place → err = .division err.place ∧
        ComesTo err.place 0x80000000) := by
  have hFirst := failsFirst_of_calculate h
  have hAlone := failsAlone_of_calculate hFirst.fails hFirst.operands
  refine ⟨hFirst, hAlone.classified, ?_⟩
  generalize err.place = node at hAlone ⊢
  rintro ⟨a, b, rfl, hLeft, hRight⟩
  cases hAlone with
  | binary => exact ⟨rfl, .binary hLeft hRight rfl⟩

/-- A quotient whose divisor comes to zero. -/
def hiddenZero : Evaluated :=
  .binary .div (.num 1) (.group (.binary .sub (.num 2) (.num 2)))

/-- Below a sign and in a sum, the quotient is the part that fails, and the error
tells why. -/
theorem classified_iff_hidden_zero :
    Evaluated.calculate (.binary .add (.num 3) (.neg hiddenZero)) =
        .error (.division hiddenZero) ∧
      Classified (.division hiddenZero) ∧ DividesByZero hiddenZero := by
  have hError : Evaluated.calculate (.binary .add (.num 3) (.neg hiddenZero)) =
      .error (.division hiddenZero) := rfl
  have hOther : ¬ DividesLowest hiddenZero := by
    rintro ⟨_, _, ⟨⟩, hLowest, -⟩
    exact absurd (Except.ok.inj hLowest) (by decide)
  have hClassified := (classified_iff hError).2.1.2 hOther
  exact ⟨hError, hClassified, hClassified.division.1 rfl⟩

/-- The lowest value, which is not a number of the notation but a difference of
two, divided by minus one. -/
def lowestByMinusOne {δ : Type} : Expr δ :=
  .binary .div (.group (.binary .sub (.neg (.num 2147483647)) (.num 1)))
    (.neg (.num 1))

/-- The error of this formula does not tell its reason: it is a division error,
and the divisor is not zero. -/
theorem not_classified_lowest :
    Expr.read? "(-2147483647 - 1) / -1" = some lowestByMinusOne ∧
      Evaluated.calculate lowestByMinusOne = .error (.division lowestByMinusOne) ∧
      ¬ Classified (.division lowestByMinusOne) := by
  refine ⟨by decide +kernel, rfl, fun hClassified => ?_⟩
  obtain ⟨_, _, ⟨⟩, hZero⟩ := hClassified.division.1 rfl
  exact absurd (Except.ok.inj hZero) (by decide)

end Expr

end DiceFormula
