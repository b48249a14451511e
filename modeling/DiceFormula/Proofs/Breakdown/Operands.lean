import DiceFormula.Proofs.Expr.Evaluation
import DiceFormula.Proofs.Expr.Layout

/-!
# Operands and operators

The groups of an expression are its operands with its operators between them.
The layout builds them from the inside out, and puts every sign and every
parenthesis at the ends of a list of entries that may have got others before.
Seen from the outside, an operand gets the marks of the expressions around it
that begin or end with it. `operands` collects them on the way down, and both
ways lead to the same entries.

## Main results

* `text_withTexts`, `groups_withTexts` — a layout with other texts in the places
  of the sets.
* `groups_eq_alternate` — the groups are the operands with their marks, and the
  operators between them.
* `describe_like_canonical` — a breakdown has the layout of the canonical
  notation.
-/

namespace DiceFormula

/-! ## Lists in turn -/

/-- The entries of two lists in turn, as long as there are some of the second
one. -/
def alternate {α : Type} : List α → List α → List α
  | x :: xs, y :: ys => x :: y :: alternate xs ys
  | xs, _ => xs

section Alternate

variable {α : Type} {xs ys : List α}

theorem alternate_append {xs' ys' : List α} {y : α}
    (h : xs.length = ys.length + 1) :
    alternate (xs ++ xs') (ys ++ y :: ys') =
      alternate xs ys ++ y :: alternate xs' ys' := by
  induction ys generalizing xs with
  | nil =>
      obtain ⟨x, rfl⟩ := List.length_eq_one_iff.1 h
      rfl
  | cons z ys ih =>
      cases xs with
      | nil => cases h
      | cons x xs =>
          simp only [List.cons_append, alternate, ih (Nat.succ.inj h)]

theorem getElem?_alternate_even (h : xs.length = ys.length + 1) (i : Nat) :
    (alternate xs ys)[2 * i]? = xs[i]? := by
  induction ys generalizing xs i with
  | nil =>
      obtain ⟨x, rfl⟩ := List.length_eq_one_iff.1 h
      cases i with
      | zero => rfl
      | succ i => simp [alternate, Nat.mul_succ]
  | cons y ys ih =>
      cases xs with
      | nil => cases h
      | cons x xs =>
          cases i with
          | zero => rfl
          | succ i =>
              rw [alternate, Nat.mul_succ, List.getElem?_cons_succ,
                List.getElem?_cons_succ, List.getElem?_cons_succ,
                ih (Nat.succ.inj h)]

theorem getElem?_alternate_odd (h : xs.length = ys.length + 1) (i : Nat) :
    (alternate xs ys)[2 * i + 1]? = ys[i]? := by
  induction ys generalizing xs i with
  | nil =>
      obtain ⟨x, rfl⟩ := List.length_eq_one_iff.1 h
      simp [alternate]
  | cons y ys ih =>
      cases xs with
      | nil => cases h
      | cons x xs =>
          cases i with
          | zero => rfl
          | succ i =>
              rw [alternate, Nat.mul_succ, List.getElem?_cons_succ,
                List.getElem?_cons_succ, List.getElem?_cons_succ,
                ih (Nat.succ.inj h)]

end Alternate

/-! ## Operands -/

/-- What stands in front of an expression that is put into parentheses if `wrap`
says so. -/
def opening (wrap : Bool) : String := if wrap then "(" else ""

/-- What stands behind it. -/
def closing (wrap : Bool) : String := if wrap then ")" else ""

theorem surround_parenthesizeGroups (before after : String) (wrap : Bool)
    (groups : List String) :
    surround before after (parenthesizeGroups wrap groups) =
      surround (before ++ opening wrap) (closing wrap ++ after) groups := by
  cases wrap with
  | true => exact surround_surround before after
  | false =>
      have hOpening : opening false = "" := rfl
      have hClosing : closing false = "" := rfl
      rw [hOpening, hClosing, String.append_empty, String.empty_append]
      rfl

/-- A number or a set of dice, with the marks of the expressions around it. -/
structure Operand where
  /-- The signs and parentheses in front of it. -/
  before : String
  /-- The text of the number or the set. -/
  text : String
  /-- The parentheses behind it. -/
  after : String

/-- The entry an operand makes in a breakdown. -/
def Operand.entry (operand : Operand) : String :=
  operand.before ++ operand.text ++ operand.after

namespace Expr

variable {δ ε : Type}

/-- The same expression with the texts in the places of the sets, from left to
right. -/
def withTexts : Expr δ → List String → Expr String
  | num n, _ => num n
  | dice _, texts => dice (texts.headD "")
  | group e, texts => group (e.withTexts texts)
  | neg e, texts => neg (e.withTexts texts)
  | binary op a b, texts =>
    binary op (a.withTexts (texts.take a.sets.length))
      (b.withTexts (texts.drop a.sets.length))

/-- The texts of the numbers and sets, from left to right. -/
def leafTexts : Expr String → List String
  | num n => [Value.text n]
  | dice text => [text]
  | group e => e.leafTexts
  | neg e => e.leafTexts
  | binary _ a b => a.leafTexts ++ b.leafTexts

/-- The operators, from left to right. -/
def operators : Expr δ → List Op
  | num _ => []
  | dice _ => []
  | group e => e.operators
  | neg e => e.operators
  | binary op a b => a.operators ++ op :: b.operators

/-- The numbers and sets from left to right, each with its marks. What stands
around the expression goes to its first operand and its last one; so do its own
signs and parentheses, which stand further inside. -/
def operands : Expr String → (before after : String) → List Operand
  | num n, before, after => [⟨before, Value.text n, after⟩]
  | dice text, before, after => [⟨before, text, after⟩]
  | group e, before, after => e.operands (before ++ "(") (")" ++ after)
  | neg e, before, after =>
    let wrap := Kind.unary.needsParens e.kind false
    e.operands (before ++ "-" ++ opening wrap) (closing wrap ++ after)
  | binary op a b, before, after =>
    let wrapLeft := op.kind.needsParens a.kind false
    let wrapRight := op.kind.needsParens b.kind true
    a.operands (before ++ opening wrapLeft) (closing wrapLeft) ++
      b.operands (opening wrapRight) (closing wrapRight ++ after)

theorem length_operands (e : Expr String) (before after : String) :
    (e.operands before after).length = e.operators.length + 1 := by
  induction e generalizing before after with
  | num n => rfl
  | dice text => rfl
  | group e ih => exact ih _ _
  | neg e ih => exact ih _ _
  | binary op a b iha ihb =>
      simp only [operands, operators, List.length_append, List.length_cons, iha,
        ihb]
      omega

theorem map_text_operands (e : Expr String) (before after : String) :
    (e.operands before after).map Operand.text = e.leafTexts := by
  induction e generalizing before after with
  | num n => rfl
  | dice text => rfl
  | group e ih => exact ih _ _
  | neg e ih => exact ih _ _
  | binary op a b iha ihb =>
      simp only [operands, leafTexts, List.map_append, iha, ihb]

/-- The marks in front of operands are signs and opening parentheses, those
behind them are closing ones, if that is so around the expression. -/
theorem marks_operands {e : Expr String} {before after : String}
    (hBefore : ∀ c ∈ before.toList, c = '-' ∨ c = '(')
    (hAfter : ∀ c ∈ after.toList, c = ')') :
    ∀ o ∈ e.operands before after,
      (∀ c ∈ o.before.toList, c = '-' ∨ c = '(') ∧
        ∀ c ∈ o.after.toList, c = ')' := by
  have hJoin : ∀ {P : Char → Prop} {s t : String}, (∀ c ∈ s.toList, P c) →
      (∀ c ∈ t.toList, P c) → ∀ c ∈ (s ++ t).toList, P c := by
    intro P s t hs ht c hc
    rw [String.toList_append, List.mem_append] at hc
    exact hc.elim (hs c) (ht c)
  have hOpening : ∀ wrap, ∀ c ∈ (opening wrap).toList, c = '-' ∨ c = '(' := by
    decide
  have hClosing : ∀ wrap, ∀ c ∈ (closing wrap).toList, c = ')' := by decide
  have hSign : ∀ c ∈ "-".toList, c = '-' ∨ c = '(' := by decide
  induction e generalizing before after with
  | num n => exact List.forall_mem_singleton.2 ⟨hBefore, hAfter⟩
  | dice text => exact List.forall_mem_singleton.2 ⟨hBefore, hAfter⟩
  | group e ih =>
      exact ih (hJoin hBefore (hOpening true)) (hJoin (hClosing true) hAfter)
  | neg e ih =>
      exact ih (hJoin (hJoin hBefore hSign) (hOpening _))
        (hJoin (hClosing _) hAfter)
  | binary op a b iha ihb =>
      exact List.forall_mem_append.2
        ⟨iha (hJoin hBefore (hOpening _)) (hClosing _),
          ihb (hOpening _) (hJoin (hClosing _) hAfter)⟩

/-- The groups are the operands and the operators in turn. -/
theorem groups_eq_alternate (e : Expr String) (before after : String) :
    surround before after (e.groups id) =
      alternate ((e.operands before after).map Operand.entry)
        (e.operators.map Op.symbol) := by
  -- The signs and parentheses of an expression join those around it, so the
  -- induction has to go through for whatever stands around.
  induction e generalizing before after with
  | num n => rfl
  | dice text => rfl
  | group e ih =>
      rw [groups, surround_parenthesizeGroups, ih]
      rfl
  | neg e ih =>
      rw [groups, surround_surround, surround_parenthesizeGroups, ih,
        String.empty_append]
      rfl
  | binary op a b iha ihb =>
      rw [groups, surround_append (parenthesizeGroups_ne_nil (groups_ne_nil id a))
        (parenthesizeGroups_ne_nil (groups_ne_nil id b)),
        surround_parenthesizeGroups, surround_parenthesizeGroups, iha, ihb,
        String.empty_append, String.append_empty, operands, operators,
        List.map_append, List.map_append, List.map_cons, alternate_append]
      simp only [List.length_map, length_operands]

/-! ## Other texts in the places of the sets -/

variable {R : δ → ε → Prop} {e : Expr δ} {e' : Expr ε}

/-- The texts of the sets of a tree, put into one that is like it. -/
theorem Alike.withTexts (h : Alike R e e') (leaf : ε → String) :
    Alike (fun text d => text = leaf d) (e.withTexts (e'.sets.map leaf)) e' := by
  induction h with
  | num n => exact .num n
  | dice h => exact .dice rfl
  | group _ ih => exact .group ih
  | neg _ ih => exact .neg ih
  | @binary op a b a' b' ha hb iha ihb =>
      have hLength : (a'.sets.map leaf).length = a.sets.length := by
        rw [List.length_map, ha.length_sets]
      rw [sets, List.map_append, Expr.withTexts, ← hLength, List.take_left,
        List.drop_left]
      exact .binary op iha ihb

theorem Alike.operators_eq (h : Alike R e e') : e.operators = e'.operators := by
  induction h with
  | num n => rfl
  | dice h => rfl
  | group _ ih => exact ih
  | neg _ ih => exact ih
  | binary op _ _ iha ihb => rw [operators, iha, ihb, operators]

/-- A layout is that of the tree with the texts in the places of the sets. -/
theorem text_withTexts (h : Alike R e e') (leaf : ε → String) :
    (e.withTexts (e'.sets.map leaf)).text id = e'.text leaf :=
  (h.withTexts leaf).text_eq

theorem groups_withTexts (h : Alike R e e') (leaf : ε → String) :
    (e.withTexts (e'.sets.map leaf)).groups id = e'.groups leaf :=
  (h.withTexts leaf).groups_eq

theorem operators_withTexts (h : Alike R e e') (leaf : ε → String) :
    (e.withTexts (e'.sets.map leaf)).operators = e.operators := by
  rw [(h.withTexts leaf).operators_eq, h.operators_eq]

/-- The expression as a breakdown shows it: with the descriptions of the sets that
were rolled, in which none lists more dice than the limit. -/
def shown (e : Expr Dice) (limit : Option Nat) (evaluated : Evaluated) :
    Expr String :=
  e.withTexts (evaluated.sets.map (Rolled.describe limit))

/-- A breakdown has the layout of the canonical notation. Evaluating an
expression puts a set that was rolled into the place of every set of dice. The
breakdown in one line is the canonical notation with the descriptions of the
rolled sets in the places of the notations of the dice. Cut up, it is made of
operands and operators in turn: one operand for every number and every set,
which is the text of that with the signs and parentheses of the expressions
around it, and the bare operators between them. -/
theorem describe_like_canonical {σ : Type} {e : Expr Dice}
    {evaluated : Evaluated} {roller : Roller σ} {table last : Table σ}
    (h : e.evaluate.run roller table = (.ok (.ok evaluated), last)) :
    evaluated.sets.map Rolled.dice = e.sets ∧
      e.canonical = (e.withTexts (e.sets.map Dice.text)).text id ∧
      ∀ limit,
        Evaluated.describe limit evaluated = (e.shown limit evaluated).text id ∧
        (∀ i, (Evaluated.groups limit evaluated)[2 * i]? =
            ((e.shown limit evaluated).operands "" "")[i]?.map Operand.entry ∧
          (Evaluated.groups limit evaluated)[2 * i + 1]? =
            e.operators[i]?.map Op.symbol) ∧
        ((e.shown limit evaluated).operands "" "").length =
          e.operators.length + 1 ∧
        ((e.shown limit evaluated).operands "" "").map Operand.text =
          (e.shown limit evaluated).leafTexts ∧
        ∀ o ∈ (e.shown limit evaluated).operands "" "",
          (∀ c ∈ o.before.toList, c = '-' ∨ c = '(') ∧
            ∀ c ∈ o.after.toList, c = ')' := by
  obtain ⟨hAlike, -⟩ := run_evaluate_eq_ok_iff.1 h
  refine ⟨hAlike.map_sets_eq, (text_withTexts (.refl e) Dice.text).symm, ?_⟩
  intro limit
  have hOperators : (e.shown limit evaluated).operators = e.operators :=
    operators_withTexts hAlike _
  have hLength := length_operands (e.shown limit evaluated) "" ""
  have hGroups : Evaluated.groups limit evaluated =
      alternate (((e.shown limit evaluated).operands "" "").map Operand.entry)
        (e.operators.map Op.symbol) := by
    rw [← hOperators, ← groups_eq_alternate, surround_empty]
    exact (groups_withTexts hAlike _).symm
  rw [hOperators] at hLength
  have hTurns : (((e.shown limit evaluated).operands "" "").map
      Operand.entry).length = (e.operators.map Op.symbol).length + 1 := by
    rw [List.length_map, List.length_map, hLength]
  refine ⟨?_, fun i => ⟨?_, ?_⟩, hLength, map_text_operands _ _ _,
    marks_operands (by simp) (by simp)⟩
  · rw [Evaluated.describe, Evaluated.groups, intercalate_groups]
    exact (text_withTexts hAlike _).symm
  · rw [hGroups, getElem?_alternate_even hTurns, List.getElem?_map]
  · rw [hGroups, getElem?_alternate_odd hTurns, List.getElem?_map]

/-- A product of two sums, of which the second one is negated. -/
def negatedSum {δ : Type} (first second : δ) : Expr δ :=
  .binary .mul (.binary .sub (.dice first) (.num 3))
    (.neg (.binary .add (.dice second) (.num 1)))

/-- With a roller that always gives two, `(2d6 - 3) * -(1d4 + 1)` is broken down
as `(2, 2 - 3) * -(2 + 1)`. -/
theorem describe_like_canonical_negated :
    ∃ e evaluated last, e = negatedSum ⟨2, .numbered 6, []⟩ ⟨1, .numbered 4, []⟩ ∧
      e.evaluate.run Roller.constant (.new 2) = (.ok (.ok evaluated), last) ∧
      Evaluated.groups none evaluated =
        ["(2, 2", "-", "3)", "*", "-(2", "+", "1)"] ∧
      Evaluated.describe none evaluated = (e.shown none evaluated).text id ∧
      ∀ i, (Evaluated.groups none evaluated)[2 * i]? =
          ((e.shown none evaluated).operands "" "")[i]?.map Operand.entry ∧
        (Evaluated.groups none evaluated)[2 * i + 1]? =
          e.operators[i]?.map Op.symbol := by
  have hRun : ((negatedSum ⟨2, .numbered 6, []⟩ ⟨1, .numbered 4, []⟩).evaluate.run
      Roller.constant (.new 2)).1 =
        .ok (.ok (negatedSum (.ofFaces ⟨2, .numbered 6, []⟩ [2, 2])
          (.ofFaces ⟨1, .numbered 4, []⟩ [2]))) := by
    rfl
  obtain ⟨-, -, hLayout⟩ := describe_like_canonical (Prod.ext hRun rfl)
  obtain ⟨hLine, hEntries, -⟩ := hLayout none
  exact ⟨_, _, _, rfl, Prod.ext hRun rfl, by decide +kernel, hLine, hEntries⟩

end Expr

end DiceFormula
