import DiceFormula.Text.Reader

/-!
# Numerals

Numbers are written in decimal without leading zeros, so every number has one
numeral. A text that goes on after a leading zero, such as `007`, is read as
the numeral `0` followed by the rest.

## Main results

* `head?_toDigits_ne_zero` — the digits of a positive number have no leading
  zero.
-/

namespace DiceFormula.Text.Reader

/-- Takes a numeral: a single `0`, or all digits if the first is another
one. -/
def numeral : Reader Nat := fun s =>
  match s with
  | '0' :: rest => some (0, rest)
  | _ =>
    match s.takeWhile Char.isDigit with
    | [] => none
    | digits =>
      some (Nat.ofDigitChars 10 digits 0, s.dropWhile Char.isDigit)

/-- The first digit of a positive number is not zero. -/
theorem head?_toDigits_ne_zero {n : Nat} (hn : 0 < n) :
    (Nat.toDigits 10 n).head? ≠ some '0' := by
  induction n using Nat.strongRecOn with
  | _ n ih =>
    by_cases h : n < 10
    · simp [Nat.toDigits_of_lt_base h]; omega
    · rw [Nat.toDigits_of_base_le (by decide) (by omega)]
      have hDiv := ih (n / 10) (by omega) (by omega)
      cases hd : Nat.toDigits 10 (n / 10) with
      | nil => exact absurd hd Nat.toDigits_ne_nil
      | cons c cs => simpa [hd] using hDiv

end DiceFormula.Text.Reader
