/-!
# Values: the integers dice show and formulas compute with

Every face, total and number of a formula is a signed 32-bit integer. An
operation computes its exact result in `Int` first and then narrows it with
`narrow?`; a result that does not fit is refused and never wrapped.

## Main results

* `Value.narrow?_eq_some_iff` — narrowing succeeds with `v` exactly when `v`
  denotes the given integer, so no other integer is ever returned for it.
* `Value.narrow?_toInt` — a value narrows to itself.
-/

namespace DiceFormula

/-- A face, a total or a number of a formula. -/
abbrev Value := Int32

namespace Value

/-- Whether an integer is denoted by a value. -/
def Fits (n : Int) : Prop := -0x80000000 ≤ n ∧ n < 0x80000000

instance (n : Int) : Decidable (Fits n) := inferInstanceAs (Decidable (_ ∧ _))

/-- The value that denotes `n`, if there is one. -/
def narrow? (n : Int) : Option Value :=
  if Fits n then some (Int32.ofInt n) else none

/-- Every value denotes an integer that fits. -/
theorem fits_toInt (v : Value) : Fits v.toInt :=
  ⟨Int32.le_toInt v, Int32.toInt_lt v⟩

theorem narrow?_toInt (v : Value) : narrow? v.toInt = some v := by
  simp [narrow?, fits_toInt v]

theorem narrow?_eq_some_iff {n : Int} {v : Value} :
    narrow? n = some v ↔ v.toInt = n := by
  constructor
  · intro h
    unfold narrow? at h
    split at h
    · next hn =>
      cases h
      exact Int32.toInt_ofInt_of_le hn.1 hn.2
    · cases h
  · rintro rfl
    exact narrow?_toInt v

theorem narrow?_eq_none_iff {n : Int} : narrow? n = none ↔ ¬ Fits n := by
  simp [narrow?]

/-- The decimal text of a value: its digits, after a minus sign if it is
negative. -/
def text (v : Value) : String :=
  match v.toInt with
  | .ofNat n => n.repr
  | .negSucc n => "-" ++ (n + 1).repr

end Value

end DiceFormula
