import DiceFormula.Proofs.Expr.Ungrouped
import DiceFormula.Proofs.Notation.RoundTrip

/-!
# Parentheses that a layout adds

An expression that was built by hand may have operands that cannot stand where
they are without parentheses. Its layout adds them, and what is read back has a
group in each such place. `Expr.regroup` puts these groups in: the result has
the layout of the expression, differs from it in its groups only, and is flat,
so that it is what is read back.

## Main results

* `text_regroup`, `ungroup_regroup`, `flat_regroup` — the groups that are put in
  are those that the layout writes.
* `read?_canonical_eq_regroup` — what is read back from a canonical notation.
* `ungrouped_round_trip` — a notation is read back up to groups, and with the
  value of the expression.
-/

namespace DiceFormula

/-- An operand in parentheses no longer needs any. -/
theorem Kind.needsParens_value (parent : Kind) (onRight : Bool) :
    parent.needsParens .value onRight = false := by
  cases parent <;> cases onRight <;> rfl

namespace Expr

variable {δ : Type}

/-! ## Putting groups in -/

/-- The expression, as a group if `wrap` says so. -/
def groupIf (wrap : Bool) (e : Expr δ) : Expr δ := if wrap then group e else e

/-- The expression with a group in each place where its layout adds
parentheses. -/
def regroup : Expr δ → Expr δ
  | num n => num n
  | dice d => dice d
  | group e => group e.regroup
  | neg e => neg (groupIf (Kind.unary.needsParens e.kind false) e.regroup)
  | binary op a b =>
    binary op (groupIf (op.kind.needsParens a.kind false) a.regroup)
      (groupIf (op.kind.needsParens b.kind true) b.regroup)

theorem kind_regroup (e : Expr δ) : e.regroup.kind = e.kind := by
  cases e <;> rfl

theorem text_groupIf (leaf : δ → String) (wrap : Bool) (e : Expr δ) :
    (groupIf wrap e).text leaf = parenthesize wrap (e.text leaf) := by
  cases wrap <;> rfl

theorem ungroup_groupIf (wrap : Bool) (e : Expr δ) :
    (groupIf wrap e).ungroup = e.ungroup := by
  cases wrap <;> rfl

theorem flat_groupIf {wrap : Bool} {e : Expr δ} (h : e.Flat) :
    (groupIf wrap e).Flat := by
  cases wrap <;> exact h

/-- An operand that has been made a group where it needs parentheses does not
need them any more. -/
theorem needsParens_groupIf (parent : Kind) (onRight : Bool) (e : Expr δ) :
    parent.needsParens
      (groupIf (parent.needsParens e.kind onRight) e.regroup).kind onRight =
        false := by
  cases hWrap : parent.needsParens e.kind onRight with
  | true => exact parent.needsParens_value onRight
  | false =>
      have hKind : (groupIf false e.regroup).kind = e.kind := kind_regroup e
      rw [hKind, hWrap]

/-- The groups are where the layout writes parentheses. -/
theorem text_regroup (leaf : δ → String) (e : Expr δ) :
    e.regroup.text leaf = e.text leaf := by
  induction e with
  | num n => rfl
  | dice d => rfl
  | group e ih => rw [regroup, text, text, ih]
  | neg e ih =>
      rw [regroup, text, text, needsParens_groupIf, text_groupIf, ih]
      rfl
  | binary op a b iha ihb =>
      rw [regroup, text, text, needsParens_groupIf, needsParens_groupIf,
        text_groupIf, text_groupIf, iha, ihb]
      rfl

theorem ungroup_regroup (e : Expr δ) : e.regroup.ungroup = e.ungroup := by
  induction e with
  | num n => rfl
  | dice d => rfl
  | group e ih => exact ih
  | neg e ih => rw [regroup, ungroup, ungroup, ungroup_groupIf, ih]
  | binary op a b iha ihb =>
      rw [regroup, ungroup, ungroup, ungroup_groupIf, ungroup_groupIf, iha, ihb]

theorem flat_regroup (e : Expr δ) : e.regroup.Flat := by
  induction e with
  | num n => exact trivial
  | dice d => exact trivial
  | group e ih => exact ih
  | neg e ih => exact ⟨needsParens_groupIf .unary false e, flat_groupIf ih⟩
  | binary op a b iha ihb =>
      exact ⟨needsParens_groupIf op.kind false a,
        needsParens_groupIf op.kind true b, flat_groupIf iha, flat_groupIf ihb⟩

/-! ## What can be written -/

theorem writable_groupIf {wrap : Bool} {e : Expr Dice} (h : e.Writable) :
    (groupIf wrap e).Writable := by
  cases wrap <;> exact h

/-- Groups do not hide a written zero. -/
theorem isWrittenZero_ungroup_iff {e : Expr Dice} :
    e.ungroup.IsWrittenZero ↔ e.IsWrittenZero := by
  rw [← isLiteralZero_iff, ← isLiteralZero_iff]
  induction e with
  | num n => rfl
  | dice d => rfl
  | group e ih => exact ih
  | neg e ih => exact ih
  | binary op a b => rfl

theorem writable_regroup {e : Expr Dice} (h : e.Writable) :
    e.regroup.Writable := by
  induction e with
  | num n => exact h
  | dice d => exact h
  | group e ih => exact ih h
  | neg e ih => exact writable_groupIf (ih h)
  | binary op a b iha ihb =>
      obtain ⟨hLeft, hRight, hZero⟩ := h
      refine ⟨writable_groupIf (iha hLeft), writable_groupIf (ihb hRight), ?_⟩
      intro hDiv
      rw [← isWrittenZero_ungroup_iff, ungroup_groupIf, ungroup_regroup,
        isWrittenZero_ungroup_iff]
      exact hZero hDiv

/-- What is read back from the canonical notation of an expression that can be
written. -/
theorem read?_canonical_eq_regroup {e : Expr Dice} (h : e.Writable) :
    read? e.canonical = some e.regroup := by
  have hText : e.regroup.canonical = e.canonical := text_regroup Dice.text e
  rw [← hText]
  exact read?_canonical (flat_regroup e) (writable_regroup h)

/-- The numbers in an expression, from left to right. -/
def numbers : Expr δ → List Value
  | num n => [n]
  | dice _ => []
  | group e => e.numbers
  | neg e => e.numbers
  | binary _ a b => a.numbers ++ b.numbers

/-- The divisors of the quotients in an expression. -/
def divisors : Expr δ → List (Expr δ)
  | num _ => []
  | dice _ => []
  | group e => e.divisors
  | neg e => e.divisors
  | binary op a b =>
    (if op = .div then [b] else []) ++ (a.divisors ++ b.divisors)

/-- An expression can be written if its numbers, its sets of dice and its
quotients can be. -/
theorem writable_of_forall {e : Expr Dice}
    (hNumbers : ∀ n ∈ e.numbers, 0 ≤ n.toInt)
    (hSets : ∀ d ∈ e.sets, Dice.read? d.text = some d)
    (hDivisors : ∀ b ∈ e.divisors, ¬ b.IsWrittenZero) : e.Writable := by
  induction e with
  | num n => exact hNumbers n (by simp [numbers])
  | dice d =>
      exact (Dice.read?_eq_some_iff.1 (hSets d (by simp [sets]))).writable
  | group e ih => exact ih hNumbers hSets hDivisors
  | neg e ih => exact ih hNumbers hSets hDivisors
  | binary op a b iha ihb =>
      simp only [numbers, List.forall_mem_append] at hNumbers
      simp only [sets, List.forall_mem_append] at hSets
      simp only [divisors, List.forall_mem_append] at hDivisors
      refine ⟨iha hNumbers.1 hSets.1 hDivisors.2.1,
        ihb hNumbers.2 hSets.2 hDivisors.2.2, ?_⟩
      rintro rfl
      exact hDivisors.1 b (by simp)

end Expr

/-- An expression that was built by hand, with numbers that are not negative,
sets of dice that are read back themselves and no division by a written zero,
is read back from its canonical notation but for its groups. What is read throws
the same dice and comes to the same value or the same error. -/
theorem ungrouped_round_trip {e : Expr Dice}
    (hNumbers : ∀ n ∈ e.numbers, 0 ≤ n.toInt)
    (hSets : ∀ d ∈ e.sets, Dice.read? d.text = some d)
    (hDivisors : ∀ b ∈ e.divisors, ¬ b.IsWrittenZero) :
    ∃ e', Expr.read? e.canonical = some e' ∧ e'.ungroup = e.ungroup ∧
      ∀ {σ : Type} (roller : Roller σ) (table : Table σ),
        (e'.total.run roller table).2 = (e.total.run roller table).2 ∧
          (e'.total.run roller table).1.map
              (Except.mapError Formula.Error.ungroup) =
            (e.total.run roller table).1.map
              (Except.mapError Formula.Error.ungroup) := by
  have hWritable := Expr.writable_of_forall hNumbers hSets hDivisors
  refine ⟨e.regroup, Expr.read?_canonical_eq_regroup hWritable,
    e.ungroup_regroup, ?_⟩
  intro σ roller table
  exact Expr.total_congr e.ungroup_regroup roller table

/-- A difference in a product, and on its right a quotient whose divisor is a
sum behind a sign. -/
def nestedOperands : Expr Dice :=
  .binary .mul (.binary .sub (.dice ⟨2, .numbered 6, []⟩) (.num 1))
    (.binary .div (.num 9)
      (.neg (.binary .add (.num 4) (.dice ⟨1, .percentile, []⟩))))

/-- Its notation is `(2d6 - 1) * (9 / -(4 + 1d%))`, and both it and what is read
back come to six times minus one. -/
theorem ungrouped_round_trip_nested :
    ∃ e', Expr.read? nestedOperands.canonical = some e' ∧
      e'.ungroup = nestedOperands.ungroup ∧
      (e'.total.run Roller.listed (Table.new [3, 4, 5])).1.map
        (Except.mapError Formula.Error.ungroup) = .ok (.ok (-6)) := by
  have hNumbers : ∀ n ∈ nestedOperands.numbers, 0 ≤ n.toInt := by
    have hList : nestedOperands.numbers = [1, 9, 4] := rfl
    simp only [hList, List.forall_mem_cons]
    exact ⟨by decide, by decide, by decide, nofun⟩
  have hDice : ∀ d ∈ nestedOperands.sets, Dice.read? d.text = some d := by
    decide +kernel
  have hZero : ∀ b ∈ nestedOperands.divisors, ¬ b.IsWrittenZero := by
    intro b hb
    rw [← Expr.isLiteralZero_iff]
    revert b
    decide
  obtain ⟨e', hRead, hUngroup, hTotal⟩ :=
    ungrouped_round_trip (e := nestedOperands) hNumbers hDice hZero
  refine ⟨e', hRead, hUngroup, ?_⟩
  rw [(hTotal Roller.listed (Table.new [3, 4, 5])).2]
  rfl

end DiceFormula
