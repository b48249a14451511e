import DiceFormula.Expr.Calculation
import DiceFormula.Proofs.Rolled

/-!
# Calculations are exact

A calculation works in values. Beside it stands the arithmetic of the integers,
which knows no limits: there every number and every set of dice is worth some
integer, and every operation comes to one, division toward zero. The two agree
for as long as all parts of an expression are `InRange`, and the first part that
is not, in the order in which the parts are worked out, is the place of the
error.

## Main results

* `calculate_eq_ok_iff` — an expression has a value if all its parts are in range,
  and then it is the exact one.
* `failsFirst_of_calculate` — an error is that of the first part that fails.
* `calculate_exact` — both together.
-/

namespace DiceFormula

/-! ## Integers of any size -/

/-- The integer an operation comes to, division toward zero. -/
def Op.exact : Op → (a b : Int) → Int
  | add, a, b => a + b
  | sub, a, b => a - b
  | mul, a, b => a * b
  | div, a, b => a.tdiv b

/-- A chain of an operation comes to the same from either end unless it can be read
from the left only. -/
theorem Op.isLeftAssocOnly_eq_false_iff {op : Op} :
    op.isLeftAssocOnly = false ↔
      ∀ a b c, op.exact (op.exact a b) c = op.exact a (op.exact b c) := by
  cases op with
  | add => exact iff_of_true rfl Int.add_assoc
  | mul => exact iff_of_true rfl Int.mul_assoc
  | sub => exact iff_of_false nofun fun h => absurd (h 0 0 1) (by decide)
  | div => exact iff_of_false nofun fun h => absurd (h 4 2 2) (by decide)

/-- An operation has its exact result, unless it is a division by zero. -/
theorem Op.result?_eq_some_iff {op : Op} {a b n : Int} :
    op.result? a b = some n ↔ (op = .div → b ≠ 0) ∧ op.exact a b = n := by
  cases op with
  | add | sub | mul => simp [result?, exact]
  | div =>
      by_cases hZero : b = 0
      · simp [result?, hZero]
      · simp [result?, exact, hZero]

/-- The integers that fit are those that values denote. -/
theorem Value.fits_iff {n : Int} : Fits n ↔ ∃ v : Value, v.toInt = n := by
  constructor
  · intro h
    exact ⟨Int32.ofInt n, Int32.toInt_ofInt_of_le h.1 h.2⟩
  · rintro ⟨v, rfl⟩
    exact v.fits_toInt

namespace Expr

variable {δ : Type}

/-- What the expression is worth in integers of any size. A division by zero is
given some worth as well; no expression with one in it has a value. -/
def exact : Evaluated → Int
  | num n => n.toInt
  | dice set => set.exactTotal
  | group e => exact e
  | neg e => -exact e
  | binary op a b => op.exact (exact a) (exact b)

/-! ## Parts -/

/-- The expressions that have to be worked out right before this one, from left to
right. -/
def children : Expr δ → List (Expr δ)
  | num _ => []
  | dice _ => []
  | group e => [e]
  | neg e => [e]
  | binary _ a b => [a, b]

/-- All parts of the expression in the order in which they are worked out: each
behind its operands, and these from left to right. -/
def nodes : Expr δ → List (Expr δ)
  | num n => [num n]
  | dice d => [dice d]
  | group e => e.nodes ++ [group e]
  | neg e => e.nodes ++ [neg e]
  | binary op a b => a.nodes ++ b.nodes ++ [binary op a b]

theorem nodes_eq (e : Expr δ) : e.nodes = e.children.flatMap nodes ++ [e] := by
  cases e <;> simp [nodes, children]

theorem mem_nodes_self (e : Expr δ) : e ∈ e.nodes := by
  rw [nodes_eq]
  exact List.mem_append_right _ (List.mem_singleton_self e)

/-- The parts of a part are parts of the whole. -/
theorem mem_nodes_of_mem {e node part : Expr δ} (hNode : node ∈ e.nodes)
    (hPart : part ∈ node.nodes) : part ∈ e.nodes := by
  induction e with
  | num n | dice d =>
      rw [List.mem_singleton.1 hNode] at hPart
      exact hPart
  | group e ih | neg e ih =>
      rcases List.mem_append.1 hNode with hInner | hSelf
      · exact List.mem_append_left _ (ih hInner)
      · rw [List.mem_singleton.1 hSelf] at hPart
        exact hPart
  | binary op a b iha ihb =>
      rcases List.mem_append.1 hNode with hOperand | hSelf
      · refine List.mem_append_left _ ?_
        rcases List.mem_append.1 hOperand with hLeft | hRight
        · exact List.mem_append_left _ (iha hLeft)
        · exact List.mem_append_right _ (ihb hRight)
      · rw [List.mem_singleton.1 hSelf] at hPart
        exact hPart

/-- The part can be worked out in values once its operands have been: its exact
worth fits, every sum on the way to the total of a set fits, and no divisor is
zero. -/
def InRange (e : Evaluated) : Prop :=
  Value.Fits e.exact ∧
    match e with
    | dice set => ∀ k, Value.Fits (set.partialSum k)
    | binary .div _ b => b.exact ≠ 0
    | _ => True

theorem inRange_neg_iff {e : Evaluated} :
    InRange (neg e) ↔ Value.Fits (-e.exact) :=
  and_iff_left trivial

theorem inRange_binary_iff {op : Op} {a b : Evaluated} :
    InRange (binary op a b) ↔
      Value.Fits (op.exact a.exact b.exact) ∧ (op = .div → b.exact ≠ 0) := by
  cases op with
  | add | sub | mul => exact and_congr_right fun _ => iff_of_true trivial nofun
  | div => exact and_congr_right fun _ => ⟨fun h _ => h, fun h => h rfl⟩

/-! ## Values -/

theorem calculate_dice_eq_ok_iff {set : Rolled} {v : Value} :
    Evaluated.calculate (dice set) = .ok v ↔ set.total = .ok v := by
  rw [Evaluated.calculate]
  cases set.total with
  | error cause => exact iff_of_false nofun nofun
  | ok total => simp only [Except.ok.injEq]

theorem calculate_neg_eq_ok_iff {e : Evaluated} {v : Value} :
    Evaluated.calculate (neg e) = .ok v ↔
      ∃ w, Evaluated.calculate e = .ok w ∧ v.toInt = -w.toInt := by
  rw [Evaluated.calculate]
  cases Evaluated.calculate e with
  | error err => exact iff_of_false nofun fun ⟨_, h, _⟩ => nomatch h
  | ok w =>
      simp only [bind, Except.bind, Except.ok.injEq, exists_eq_left']
      rw [← Value.narrow?_eq_some_iff]
      cases Value.narrow? (-w.toInt) with
      | none => exact iff_of_false nofun nofun
      | some r =>
          rw [Option.some.injEq]
          exact Iff.of_eq (Except.ok.injEq r v)

theorem calculate_binary_eq_ok_iff {op : Op} {a b : Evaluated} {v : Value} :
    Evaluated.calculate (binary op a b) = .ok v ↔
      ∃ x y, Evaluated.calculate a = .ok x ∧ Evaluated.calculate b = .ok y ∧
        op.result? x.toInt y.toInt = some v.toInt := by
  rw [Evaluated.calculate]
  cases Evaluated.calculate a with
  | error err => exact iff_of_false nofun fun ⟨_, _, h, _⟩ => nomatch h
  | ok x =>
      cases Evaluated.calculate b with
      | error err => exact iff_of_false nofun fun ⟨_, _, _, h, _⟩ => nomatch h
      | ok y =>
          simp only [bind, Except.bind, Except.ok.injEq, exists_and_left,
            exists_eq_left']
          rw [← Op.apply?_eq_some_iff]
          cases op.apply? x y with
          | none => exact iff_of_false nofun nofun
          | some r =>
          rw [Option.some.injEq]
          exact Iff.of_eq (Except.ok.injEq r v)

/-- An expression has a value if all its parts are in range, and then it is the
exact one. -/
theorem calculate_eq_ok_iff {e : Evaluated} {v : Value} :
    Evaluated.calculate e = .ok v ↔
      (∀ node ∈ e.nodes, InRange node) ∧ v.toInt = e.exact := by
  induction e generalizing v with
  | num n =>
      have hInRange : InRange (num n) := ⟨n.fits_toInt, trivial⟩
      rw [nodes, List.forall_mem_singleton, and_iff_right hInRange, exact,
        Int32.toInt_inj, Evaluated.calculate, Except.ok.injEq, eq_comm]
  | dice set =>
      rw [calculate_dice_eq_ok_iff, Rolled.total_eq_ok_iff, nodes,
        List.forall_mem_singleton]
      exact and_congr_left fun _ =>
        ⟨fun h => ⟨Rolled.fits_exactTotal h, h⟩, fun h => h.2⟩
  | group e ih =>
      rw [nodes, List.forall_mem_append, List.forall_mem_singleton]
      refine ih.trans (and_congr_left fun _ => ?_)
      have hGroup (h : ∀ node ∈ e.nodes, InRange node) : InRange (group e) :=
        ⟨(h e e.mem_nodes_self).1, trivial⟩
      exact ⟨fun h => ⟨h, hGroup h⟩, fun h => h.1⟩
  | neg e ih =>
      rw [nodes, List.forall_mem_append, List.forall_mem_singleton,
        inRange_neg_iff, calculate_neg_eq_ok_iff]
      constructor
      · rintro ⟨w, hOperand, hValue⟩
        obtain ⟨hNodes, hWorth⟩ := ih.1 hOperand
        rw [hWorth] at hValue
        exact ⟨⟨hNodes, Value.fits_iff.2 ⟨v, hValue⟩⟩, hValue⟩
      · rintro ⟨⟨hNodes, -⟩, hValue⟩
        obtain ⟨w, hWorth⟩ := Value.fits_iff.1 (hNodes e e.mem_nodes_self).1
        exact ⟨w, ih.2 ⟨hNodes, hWorth⟩, by rw [hWorth]; exact hValue⟩
  | binary op a b iha ihb =>
      rw [nodes, List.forall_mem_append, List.forall_mem_append,
        List.forall_mem_singleton, inRange_binary_iff, calculate_binary_eq_ok_iff]
      constructor
      · rintro ⟨x, y, hLeft, hRight, hResult⟩
        obtain ⟨hNodesLeft, hWorthLeft⟩ := iha.1 hLeft
        obtain ⟨hNodesRight, hWorthRight⟩ := ihb.1 hRight
        rw [Op.result?_eq_some_iff, hWorthLeft, hWorthRight] at hResult
        obtain ⟨hDivisor, hValue⟩ := hResult
        exact ⟨⟨⟨hNodesLeft, hNodesRight⟩,
          Value.fits_iff.2 ⟨v, hValue.symm⟩, hDivisor⟩, hValue.symm⟩
      · rintro ⟨⟨⟨hNodesLeft, hNodesRight⟩, -, hDivisor⟩, hValue⟩
        obtain ⟨x, hLeft⟩ :=
          Value.fits_iff.1 (hNodesLeft a a.mem_nodes_self).1
        obtain ⟨y, hRight⟩ :=
          Value.fits_iff.1 (hNodesRight b b.mem_nodes_self).1
        refine ⟨x, y, iha.2 ⟨hNodesLeft, hLeft⟩, ihb.2 ⟨hNodesRight, hRight⟩, ?_⟩
        rw [Op.result?_eq_some_iff, hLeft, hRight]
        exact ⟨hDivisor, hValue.symm⟩

theorem exists_calculate_eq_ok_iff {e : Evaluated} :
    (∃ v, Evaluated.calculate e = .ok v) ↔ ∀ node ∈ e.nodes, InRange node := by
  constructor
  · rintro ⟨v, h⟩
    exact (calculate_eq_ok_iff.1 h).1
  · intro h
    obtain ⟨v, hWorth⟩ := Value.fits_iff.1 (h e e.mem_nodes_self).1
    exact ⟨v, calculate_eq_ok_iff.2 ⟨h, hWorth⟩⟩

/-- If an expression has a value, so have all its parts. -/
theorem calculate_nodes {e : Evaluated} {v : Value}
    (h : Evaluated.calculate e = .ok v) :
    ∀ node ∈ e.nodes, ∃ w, Evaluated.calculate node = .ok w := by
  intro node hNode
  have hInRange := (calculate_eq_ok_iff.1 h).1
  exact exists_calculate_eq_ok_iff.2 fun part hPart =>
    hInRange part (mem_nodes_of_mem hNode hPart)

/-! ## Errors -/

/-- An error arises at the part it holds: this part fails although its operands
have values, and so have all parts in front of it. -/
structure FailsFirst (e : Evaluated) (err : CalcError) : Prop where
  split : ∃ before after, e.nodes = before ++ err.place :: after ∧
    ∀ node ∈ before, ∃ v, Evaluated.calculate node = .ok v
  operands : ∀ operand ∈ err.place.children,
    ∃ v, Evaluated.calculate operand = .ok v
  fails : Evaluated.calculate err.place = .error err

/-- The first failure of a list of parts is also that of any list that goes on
behind it. -/
theorem FailsFirst.of_operand {e operand : Evaluated} {err : CalcError}
    {passed more : List Evaluated}
    (h : FailsFirst operand err) (hNodes : e.nodes = passed ++ operand.nodes ++ more)
    (hPassed : ∀ node ∈ passed, ∃ v, Evaluated.calculate node = .ok v) :
    FailsFirst e err := by
  obtain ⟨before, after, hSplit, hBefore⟩ := h.split
  refine ⟨⟨passed ++ before, after ++ more, ?_, ?_⟩, h.operands, h.fails⟩
  · rw [hNodes, hSplit]
    simp only [List.append_assoc, List.cons_append]
  · exact List.forall_mem_append.2 ⟨hPassed, hBefore⟩

theorem CalcError.place_ofOp (op : Op) (place : Evaluated) :
    (ofOp op place).place = place := by
  cases op <;> rfl

/-- What is wrong with an expression that has no value although its operands have:
the total of a set, or the result of an operation. -/
inductive FailsAlone : Evaluated → CalcError → Prop
  | dice {set : Rolled} {cause : Dice.Error} (h : set.total = .error cause) :
      FailsAlone (.dice set) (.dice (.dice set) cause)
  | neg {e : Evaluated} {x : Value} (hOperand : Evaluated.calculate e = .ok x)
      (h : Value.narrow? (-x.toInt) = none) :
      FailsAlone (.neg e) (.overflow (.neg e))
  | binary {op : Op} {a b : Evaluated} {x y : Value}
      (hLeft : Evaluated.calculate a = .ok x)
      (hRight : Evaluated.calculate b = .ok y) (h : op.apply? x y = none) :
      FailsAlone (.binary op a b) (.ofOp op (.binary op a b))

theorem failsAlone_of_calculate {e : Evaluated} {err : CalcError}
    (h : Evaluated.calculate e = .error err)
    (hOperands : ∀ operand ∈ e.children,
      ∃ v, Evaluated.calculate operand = .ok v) : FailsAlone e err := by
  cases e with
  | num n => cases h
  | dice set =>
      rw [Evaluated.calculate] at h
      cases hTotal : set.total with
      | ok total =>
          rw [hTotal] at h
          cases h
      | error cause =>
          rw [hTotal] at h
          cases h
          exact .dice hTotal
  | group e =>
      obtain ⟨v, hValue⟩ := List.forall_mem_singleton.1 hOperands
      rw [Evaluated.calculate, hValue] at h
      cases h
  | neg e =>
      obtain ⟨v, hValue⟩ := List.forall_mem_singleton.1 hOperands
      rw [Evaluated.calculate, hValue] at h
      simp only [bind, Except.bind] at h
      cases hNarrow : Value.narrow? (-v.toInt) with
      | some r =>
          rw [hNarrow] at h
          cases h
      | none =>
          rw [hNarrow] at h
          cases h
          exact .neg hValue hNarrow
  | binary op a b =>
      obtain ⟨⟨x, hLeft⟩, hOperand⟩ := List.forall_mem_cons.1 hOperands
      obtain ⟨y, hRight⟩ := List.forall_mem_singleton.1 hOperand
      rw [Evaluated.calculate, hLeft, hRight] at h
      simp only [bind, Except.bind] at h
      cases hResult : op.apply? x y with
      | some r =>
          rw [hResult] at h
          cases h
      | none =>
          rw [hResult] at h
          cases h
          exact .binary hLeft hRight hResult

/-- An expression whose operands have values fails at itself. -/
theorem FailsAlone.place_eq {e : Evaluated} {err : CalcError}
    (h : FailsAlone e err) : err.place = e := by
  cases h with
  | dice | neg => rfl
  | binary => exact CalcError.place_ofOp _ _

/-- The error of an expression whose operands have values is its own, and all its
parts in front of it are parts of the operands. -/
theorem FailsFirst.of_operands {e : Evaluated} {err : CalcError}
    (h : Evaluated.calculate e = .error err)
    (hOperands : ∀ operand ∈ e.children,
      ∃ v, Evaluated.calculate operand = .ok v) : FailsFirst e err := by
  have hPlace := (failsAlone_of_calculate h hOperands).place_eq
  refine ⟨⟨e.children.flatMap nodes, [], ?_, ?_⟩, ?_, ?_⟩
  · rw [hPlace]
    exact e.nodes_eq
  · intro node hNode
    obtain ⟨operand, hOperand, hPart⟩ := List.mem_flatMap.1 hNode
    obtain ⟨v, hValue⟩ := hOperands operand hOperand
    exact calculate_nodes hValue node hPart
  · rw [hPlace]
    exact hOperands
  · rw [hPlace]
    exact h

/-- The error of a calculation is that of the first part that fails. -/
theorem failsFirst_of_calculate {e : Evaluated} {err : CalcError}
    (h : Evaluated.calculate e = .error err) : FailsFirst e err := by
  induction e with
  | num n => cases h
  | dice set => exact .of_operands h nofun
  | group e ih => exact (ih h).of_operand rfl (List.forall_mem_nil _)
  | neg e ih =>
      cases hOperand : Evaluated.calculate e with
      | error err' =>
          rw [Evaluated.calculate, hOperand] at h
          cases h
          exact (ih hOperand).of_operand rfl (List.forall_mem_nil _)
      | ok v => exact .of_operands h (List.forall_mem_singleton.2 ⟨v, hOperand⟩)
  | binary op a b iha ihb =>
      cases hLeft : Evaluated.calculate a with
      | error err' =>
          rw [Evaluated.calculate, hLeft] at h
          cases h
          have hNodes : (binary op a b).nodes =
              [] ++ a.nodes ++ (b.nodes ++ [binary op a b]) :=
            List.append_assoc ..
          exact (iha hLeft).of_operand hNodes (List.forall_mem_nil _)
      | ok x =>
          cases hRight : Evaluated.calculate b with
          | error err' =>
              rw [Evaluated.calculate, hLeft, hRight] at h
              cases h
              exact (ihb hRight).of_operand rfl (calculate_nodes hLeft)
          | ok y =>
              exact .of_operands h (List.forall_mem_cons.2
                ⟨⟨x, hLeft⟩, List.forall_mem_singleton.2 ⟨y, hRight⟩⟩)

/-- A part that fails first is out of range. -/
theorem FailsFirst.not_inRange {e : Evaluated} {err : CalcError}
    (h : FailsFirst e err) : ¬ InRange err.place := by
  intro hPlace
  have hNodes : ∀ node ∈ err.place.nodes, InRange node := by
    rw [nodes_eq, List.forall_mem_append, List.forall_mem_singleton]
    refine ⟨fun node hNode => ?_, hPlace⟩
    obtain ⟨operand, hOperand, hPart⟩ := List.mem_flatMap.1 hNode
    exact exists_calculate_eq_ok_iff.1 (h.operands operand hOperand) node hPart
  obtain ⟨v, hValue⟩ := exists_calculate_eq_ok_iff.2 hNodes
  rw [h.fails] at hValue
  cases hValue

/-- A calculation is exact. It comes to a value if in integers of any size every
part of the expression is worth a value, every sum on the way to the total of a
set is a value and no divisor is zero; and then it comes to what the expression
is worth. Otherwise the error holds the first part, in the order in which they
are worked out, that fails although all its operands have values, and this is a
part that is out of range. -/
theorem calculate_exact (e : Evaluated) :
    (∀ v, Evaluated.calculate e = .ok v ↔
      (∀ node ∈ e.nodes, InRange node) ∧ v.toInt = e.exact) ∧
    ∀ err, Evaluated.calculate e = .error err →
      FailsFirst e err ∧ ¬ InRange err.place := by
  refine ⟨fun v => calculate_eq_ok_iff, fun err h => ?_⟩
  have hFirst := failsFirst_of_calculate h
  exact ⟨hFirst, hFirst.not_inRange⟩

/-- A sum is worked out before a division to its right, and its error comes
first. -/
example :
    Evaluated.calculate (.binary .mul (.binary .add (.num 2147483647) (.num 1))
        (.binary .div (.num 1) (.num 0))) =
      .error (.overflow (.binary .add (.num 2147483647) (.num 1))) := rfl

end Expr

end DiceFormula
