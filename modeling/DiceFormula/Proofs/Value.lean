import DiceFormula.Value

/-!
# Texts of values

A value is written with digits, behind a sign if it is negative, and no two
values are written alike.

## Main results

* `Value.text_injective` — a value can be told from its text.
-/

namespace DiceFormula

theorem isDigit_of_mem_repr {n : Nat} {c : Char} (h : c ∈ n.repr.toList) :
    c.isDigit = true := by
  rw [Nat.toList_repr] at h
  exact Nat.isDigit_of_mem_toDigits (by decide) (by decide) h

theorem repr_toList_ne_nil (n : Nat) : n.repr.toList ≠ [] := by
  rw [Nat.toList_repr]
  exact Nat.toDigits_ne_nil

theorem repr_toList_injective {m n : Nat}
    (h : m.repr.toList = n.repr.toList) : m = n := by
  rw [Nat.toList_repr, Nat.toList_repr] at h
  have hValue := congrArg (Nat.ofDigitChars 10 · 0) h
  simpa only [Nat.ofDigitChars_ten_toDigits] using hValue

namespace Value

/-- The digits, behind a sign if there is one. -/
theorem toList_text_cases (v : Value) :
    (∃ n : Nat, v.toInt = n ∧ (text v).toList = n.repr.toList) ∨
      ∃ n : Nat, v.toInt = Int.negSucc n ∧
        (text v).toList = '-' :: (n + 1).repr.toList := by
  unfold text
  cases h : v.toInt with
  | ofNat n => exact .inl ⟨n, rfl, rfl⟩
  | negSucc n =>
      refine .inr ⟨n, rfl, ?_⟩
      rw [String.toList_append]
      rfl

theorem mem_text {v : Value} {c : Char} (h : c ∈ (text v).toList) :
    c.isDigit = true ∨ c = '-' := by
  rcases toList_text_cases v with ⟨n, -, hText⟩ | ⟨n, -, hText⟩
  · exact .inl (isDigit_of_mem_repr (hText ▸ h))
  · rw [hText, List.mem_cons] at h
    exact h.symm.imp isDigit_of_mem_repr id

theorem text_toList_ne_nil (v : Value) : (text v).toList ≠ [] := by
  rcases toList_text_cases v with ⟨n, -, hText⟩ | ⟨n, -, hText⟩
  · rw [hText]
    exact repr_toList_ne_nil n
  · rw [hText]
    exact List.cons_ne_nil _ _

/-- A value can be told from its text. -/
theorem text_injective {v w : Value} (h : (text v).toList = (text w).toList) :
    v = w := by
  have hSign : ∀ m n : Nat, m.repr.toList ≠ '-' :: n.repr.toList := by
    intro m n hEq
    have hDigit : '-'.isDigit = true :=
      isDigit_of_mem_repr (hEq ▸ List.mem_cons_self)
    exact absurd hDigit (by decide)
  apply Int32.toInt_inj.1
  rcases toList_text_cases v with ⟨m, hv, hm⟩ | ⟨m, hv, hm⟩
  · rcases toList_text_cases w with ⟨n, hw, hn⟩ | ⟨n, hw, hn⟩
    · rw [hm, hn] at h
      rw [hv, hw, repr_toList_injective h]
    · rw [hm, hn] at h
      exact absurd h (hSign m (n + 1))
  · rcases toList_text_cases w with ⟨n, hw, hn⟩ | ⟨n, hw, hn⟩
    · rw [hm, hn] at h
      exact absurd h.symm (hSign n (m + 1))
    · rw [hm, hn, List.cons.injEq] at h
      have hEq := repr_toList_injective h.2
      rw [hv, hw, Nat.succ.inj hEq]

end Value

end DiceFormula
