import DiceFormula.Proofs.Breakdown.DieText
import DiceFormula.Proofs.Breakdown.Operands

/-!
# Listings with a limit

A listing with a limit is meant to be a list of the same form as one without: the
dice up to the limit and, if that leaves some out, one more entry that counts them.
It is written in two parts, the dice that are shown with commas between them and the
note on the others with a comma in front of it. These make up the list unless the
first part is empty, where the comma has nothing to separate.

In a breakdown a limit changes what is written for single sets and nothing around
them: the signs and parentheses of an entry depend on the shape of the expression
alone. So the entries that change are those of the sets with more dice than the limit.

## Main results

* `Rolled.describe_eq_iff` — where a listing is the list it is meant to be.
* `Rolled.describe_ne_iff` — a limit shows where it leaves out dice.
* `Expr.exists_marks` — what stands around a number or a set is the same whatever is
  written for the sets.
* `Evaluated.truncated_iff` — all of that together.
-/

namespace DiceFormula

/-! ## Listings -/

namespace Rolled

/-- Whether there are more dice than the limit. -/
def exceeds (limit : Option Nat) (rolled : Rolled) : Bool :=
  match limit with
  | none => false
  | some n => n < rolled.rolls.length

/-- The note that stands for the dice behind the first `n`. -/
def note (n : Nat) (rolled : Rolled) : String :=
  (rolled.rolls.length - n).repr ++ " more..."

/-- The entries of a listing: the dice up to the limit, and a note on the others if
there are some. -/
def listing (limit : Option Nat) (rolled : Rolled) : List String :=
  match limit with
  | none => rolled.rolls.map Die.text
  | some n =>
    (rolled.rolls.take n).map Die.text ++
      if n < rolled.rolls.length then [rolled.note n] else []

variable {rolled : Rolled} {limit : Option Nat} {n : Nat}

theorem exceeds_eq_true_iff :
    rolled.exceeds limit = true ↔ ∃ n, limit = some n ∧ n < rolled.rolls.length := by
  cases limit <;> simp [exceeds]

/-- Without more dice than the limit all of them are listed, and nothing else. -/
theorem listing_of_not_exceeds (h : rolled.exceeds limit = false) :
    rolled.listing limit = rolled.rolls.map Die.text := by
  cases limit with
  | none => rfl
  | some n =>
      have hAll : rolled.rolls.length ≤ n := Nat.not_lt.1 (of_decide_eq_false h)
      rw [listing, if_neg (Nat.not_lt.2 hAll), List.take_of_length_le hAll,
        List.append_nil]

theorem describe_of_not_exceeds (h : rolled.exceeds limit = false) :
    rolled.describe limit = rolled.describe none := by
  cases limit with
  | none => rfl
  | some n =>
      have hAll : rolled.rolls.length ≤ n := Nat.not_lt.1 (of_decide_eq_false h)
      simp only [describe, List.take_of_length_le hAll]

theorem describe_of_lt (h : n < rolled.rolls.length) :
    rolled.describe (some n) =
      ", ".intercalate ((rolled.rolls.take n).map Die.text) ++
        (", " ++ rolled.note n) := by
  have hShown : (rolled.rolls.take n).length = n :=
    List.length_take_of_le (Nat.le_of_lt h)
  have hHidden : rolled.rolls.length - n ≠ 0 := by omega
  simp only [describe, hShown, if_neg hHidden, note, String.append_assoc]

theorem listing_of_lt (h : n < rolled.rolls.length) :
    rolled.listing (some n) =
      (rolled.rolls.take n).map Die.text ++ [rolled.note n] := by
  rw [listing, if_pos h]

/-- With a limit of zero the comma is there without a die in front of it. -/
theorem describe_zero (h : rolled.rolls ≠ []) :
    rolled.describe (some 0) = ", " ++ ", ".intercalate (rolled.listing (some 0)) := by
  have hLess : 0 < rolled.rolls.length := List.length_pos_iff.2 h
  rw [describe_of_lt hLess, listing_of_lt hLess, List.take_zero, List.map_nil,
    String.intercalate_nil, String.empty_append, List.nil_append,
    String.intercalate_singleton]

/-- A listing is the list it is meant to be, unless it has a limit of zero and
leaves out dice. -/
theorem describe_eq_iff (limit : Option Nat) (rolled : Rolled) :
    rolled.describe limit = ", ".intercalate (rolled.listing limit) ↔
      ¬ (limit = some 0 ∧ rolled.rolls ≠ []) := by
  cases hExceeds : rolled.exceeds limit with
  | false =>
      refine iff_of_true ?_ ?_
      · rw [describe_of_not_exceeds hExceeds, listing_of_not_exceeds hExceeds,
          describe_none]
      · rintro ⟨rfl, hDice⟩
        exact of_decide_eq_false hExceeds (List.length_pos_iff.2 hDice)
  | true =>
      obtain ⟨n, rfl, hLess⟩ := exceeds_eq_true_iff.1 hExceeds
      cases n with
      | zero =>
          have hDice : rolled.rolls ≠ [] := List.length_pos_iff.1 hLess
          refine iff_of_false (fun hEq => ?_) (not_not_intro ⟨rfl, hDice⟩)
          rw [describe_zero hDice] at hEq
          have hLength := congrArg String.length hEq
          rw [String.length_append] at hLength
          have hComma : ", ".length = 2 := by decide
          omega
      | succ n =>
          have hShown : (rolled.rolls.take (n + 1)).map Die.text ≠ [] := by
            rw [Ne, List.map_eq_nil_iff, ← List.length_eq_zero_iff,
              List.length_take_of_le (Nat.le_of_lt hLess)]
            exact Nat.succ_ne_zero n
          refine iff_of_true ?_ (fun hZero => by cases hZero.1)
          rw [describe_of_lt hLess, listing_of_lt hLess,
            String.intercalate_append_of_ne_nil hShown (List.cons_ne_nil _ _),
            String.intercalate_singleton, String.append_assoc]

/-- No die has a full stop in its text, so all dice listed have none. -/
theorem not_mem_describe_none (rolled : Rolled) :
    '.' ∉ (rolled.describe none).toList := by
  intro hMem
  rw [describe_none] at hMem
  rcases mem_intercalate hMem with hSeparator | ⟨text, hText, hDot⟩
  · exact absurd hSeparator (by decide)
  · obtain ⟨die, -, rfl⟩ := List.mem_map.1 hText
    exact absurd (Die.isDieChar_text '.' hDot) (by decide)

/-- A limit shows where it leaves out dice, and nowhere else. -/
theorem describe_ne_iff :
    rolled.describe limit ≠ rolled.describe none ↔ rolled.exceeds limit = true := by
  cases hExceeds : rolled.exceeds limit with
  | false => simp [describe_of_not_exceeds hExceeds]
  | true =>
      obtain ⟨n, rfl, hLess⟩ := exceeds_eq_true_iff.1 hExceeds
      refine iff_of_true (fun hEq => ?_) rfl
      have hDot : '.' ∈ (rolled.describe (some n)).toList := by
        rw [describe_of_lt hLess, note]
        simp
      rw [hEq] at hDot
      exact rolled.not_mem_describe_none hDot

end Rolled

/-! ## Breakdowns -/

/-- The signs and parentheses around an operand. -/
def Operand.marks (operand : Operand) : String × String :=
  (operand.before, operand.after)

namespace Expr

variable {δ : Type}

/-- The numbers and sets, from left to right. -/
def leaves : Expr δ → List (Value ⊕ δ)
  | num n => [.inl n]
  | dice d => [.inr d]
  | group e => e.leaves
  | neg e => e.leaves
  | binary _ a b => a.leaves ++ b.leaves

theorem kind_withTexts (e : Expr δ) (texts : List String) :
    (e.withTexts texts).kind = e.kind := by
  cases e <;> rfl

/-- The marks do not depend on the texts. -/
theorem marks_withTexts (e : Expr δ) (texts texts' : List String)
    (before after : String) :
    ((e.withTexts texts).operands before after).map Operand.marks =
      ((e.withTexts texts').operands before after).map Operand.marks := by
  induction e generalizing texts texts' before after with
  | num n => rfl
  | dice d => rfl
  | group e ih => exact ih _ _ _ _
  | neg e ih =>
      simp only [withTexts, operands, kind_withTexts]
      exact ih _ _ _ _
  | binary op a b iha ihb =>
      simp only [withTexts, operands, kind_withTexts, List.map_append]
      rw [iha _ (texts'.take a.sets.length), ihb _ (texts'.drop a.sets.length)]

/-- The texts of the operands are those of the leaves. -/
theorem leafTexts_withTexts (e : Expr δ) (leaf : δ → String) :
    (e.withTexts (e.sets.map leaf)).leafTexts =
      e.leaves.map (Sum.elim Value.text leaf) := by
  induction e with
  | num n => rfl
  | dice d => rfl
  | group e ih => exact ih
  | neg e ih => exact ih
  | binary op a b iha ihb =>
      have hLength : a.sets.length = (a.sets.map leaf).length := by
        rw [List.length_map]
      rw [sets, List.map_append, withTexts, hLength, List.take_left, List.drop_left,
        leafTexts, iha, ihb, leaves, List.map_append]

section Entries

variable (e : Expr δ) (leaf : δ → String) (i : Nat)

theorem groups_eq_operands :
    e.groups leaf = alternate
      (((e.withTexts (e.sets.map leaf)).operands "" "").map Operand.entry)
      (e.operators.map Op.symbol) := by
  rw [← operators_withTexts (.refl e) leaf, ← groups_eq_alternate, surround_empty,
    groups_withTexts (.refl e) leaf]

theorem length_operands_withTexts :
    (((e.withTexts (e.sets.map leaf)).operands "" "").map Operand.entry).length =
      (e.operators.map Op.symbol).length + 1 := by
  rw [List.length_map, List.length_map, length_operands,
    operators_withTexts (.refl e) leaf]

/-- Every other entry is an operator. -/
theorem getElem?_groups_odd :
    (e.groups leaf)[2 * i + 1]? = e.operators[i]?.map Op.symbol := by
  rw [groups_eq_operands, getElem?_alternate_odd (e.length_operands_withTexts leaf),
    List.getElem?_map]

/-- The entries between them are the operands. -/
theorem getElem?_groups_even :
    (e.groups leaf)[2 * i]? =
      ((e.withTexts (e.sets.map leaf)).operands "" "")[i]?.map Operand.entry := by
  rw [groups_eq_operands, getElem?_alternate_even (e.length_operands_withTexts leaf),
    List.getElem?_map]

theorem getElem?_text_operands :
    ((e.withTexts (e.sets.map leaf)).operands "" "")[i]?.map Operand.text =
      e.leaves[i]?.map (Sum.elim Value.text leaf) := by
  rw [← List.getElem?_map, map_text_operands, leafTexts_withTexts, List.getElem?_map]

end Entries

/-- What stands around a number or a set is the same whatever is written for the
sets. -/
theorem exists_marks {e : Expr δ} {i : Nat} {l : Value ⊕ δ}
    (h : e.leaves[i]? = some l) : ∃ before after : String, ∀ leaf : δ → String,
      (e.groups leaf)[2 * i]? =
        some (before ++ Sum.elim Value.text leaf l ++ after) := by
  have hOperand : ∀ leaf : δ → String, ∃ o,
      ((e.withTexts (e.sets.map leaf)).operands "" "")[i]? = some o ∧
        o.text = Sum.elim Value.text leaf l := by
    intro leaf
    have hText := e.getElem?_text_operands leaf i
    rw [h, Option.map_some] at hText
    exact Option.map_eq_some_iff.1 hText
  obtain ⟨blank, hBlank, -⟩ := hOperand fun _ => ""
  refine ⟨blank.before, blank.after, fun leaf => ?_⟩
  obtain ⟨o, hEntry, hText⟩ := hOperand leaf
  have hMarks := congrArg (·[i]?) (e.marks_withTexts (e.sets.map leaf)
    (e.sets.map fun _ => "") "" "")
  simp only [List.getElem?_map, hEntry, hBlank, Option.map_some, Option.some.injEq,
    Operand.marks, Prod.mk.injEq] at hMarks
  rw [getElem?_groups_even, hEntry, Option.map_some, Operand.entry, hText, hMarks.1,
    hMarks.2]

/-- Behind the last number or set there is no entry. -/
theorem getElem?_groups_of_none {e : Expr δ} {i : Nat} (h : e.leaves[i]? = none)
    (leaf : δ → String) : (e.groups leaf)[2 * i]? = none := by
  have hText := e.getElem?_text_operands leaf i
  rw [h, Option.map_none, Option.map_eq_none_iff] at hText
  rw [getElem?_groups_even, hText, Option.map_none]

/-- Where two ways of writing the sets lead to different entries: at the sets for
which they differ. -/
theorem getElem?_groups_ne_iff {e : Expr δ} {leaf leaf' : δ → String} {i : Nat} :
    (e.groups leaf)[2 * i]? ≠ (e.groups leaf')[2 * i]? ↔
      ∃ d, e.leaves[i]? = some (.inr d) ∧ leaf d ≠ leaf' d := by
  cases hLeaf : e.leaves[i]? with
  | none => simp [getElem?_groups_of_none hLeaf]
  | some l =>
      obtain ⟨before, after, hEntry⟩ := exists_marks hLeaf
      rw [hEntry, hEntry, Ne, Option.some.injEq, String.append_left_inj,
        String.append_right_inj]
      cases l with
      | inl n => simp
      | inr d => simp

end Expr

/-- What a limit does to listings and breakdowns. A listing is a list of the texts of
the dice up to the limit, with one more entry for the others if there are some, unless
the limit is zero and there are dice: then that entry has a comma in front of it, and
no die in front of the comma. Without a limit or with one that is not exceeded, all
dice are listed and nothing else. In the breakdown of an expression the operators stay
as they are, and the entry of a number or a set is another one than without a limit
just if it is that of a set with more dice than the limit; what stands around the set
in its entry does not depend on the limit. -/
theorem Evaluated.truncated_iff (limit : Option Nat) (rolled : Rolled)
    (e : Evaluated) :
    (rolled.describe limit = ", ".intercalate (rolled.listing limit) ↔
      ¬ (limit = some 0 ∧ rolled.rolls ≠ [])) ∧
    (limit = some 0 → rolled.rolls ≠ [] →
      rolled.describe limit = ", " ++ ", ".intercalate (rolled.listing limit)) ∧
    (rolled.exceeds limit = false →
      rolled.describe limit = ", ".intercalate (rolled.rolls.map Die.text)) ∧
    ∀ i : Nat,
      (Evaluated.groups limit e)[2 * i + 1]? =
          (Evaluated.groups none e)[2 * i + 1]? ∧
        ((Evaluated.groups limit e)[2 * i]? ≠ (Evaluated.groups none e)[2 * i]? ↔
          ∃ set, e.leaves[i]? = some (.inr set) ∧ set.exceeds limit = true) ∧
        ∀ set, e.leaves[i]? = some (.inr set) → ∃ before after : String,
          (Evaluated.groups limit e)[2 * i]? =
              some (before ++ set.describe limit ++ after) ∧
            (Evaluated.groups none e)[2 * i]? =
              some (before ++ set.describe none ++ after) := by
  refine ⟨rolled.describe_eq_iff limit, ?_, fun hFits => ?_,
    fun i => ⟨?_, ?_, fun set hLeaf => ?_⟩⟩
  · rintro rfl hDice
    exact Rolled.describe_zero hDice
  · rw [Rolled.describe_of_not_exceeds hFits, Rolled.describe_none]
  · rw [Evaluated.groups, Evaluated.groups, Expr.getElem?_groups_odd,
      Expr.getElem?_groups_odd]
  · simp only [Evaluated.groups, Expr.getElem?_groups_ne_iff, Rolled.describe_ne_iff]
  · obtain ⟨before, after, hEntry⟩ := Expr.exists_marks hLeaf
    exact ⟨before, after, hEntry _, hEntry _⟩

/-- Three dice listed with a limit of zero, a single die listed with a limit of two,
and both with a limit of two in the product of two sums. -/
theorem Evaluated.truncated_iff_negated :
    ∃ three one e, three = Rolled.ofFaces ⟨3, .numbered 6, []⟩ [2, 5, 1] ∧
      one = Rolled.ofFaces ⟨1, .numbered 4, []⟩ [2] ∧
      e = Expr.negatedSum three one ∧
      Evaluated.groups (some 2) e =
        ["(2, 5, 1 more...", "-", "3)", "*", "-(2", "+", "1)"] ∧
      three.rolls ≠ [] ∧
      three.describe (some 0) =
        ", " ++ ", ".intercalate (three.listing (some 0)) ∧
      one.exceeds (some 2) = false ∧
      one.describe (some 2) = ", ".intercalate (one.rolls.map Die.text) ∧
      e.leaves[0]? = some (.inr three) ∧
      ∃ before after : String,
        (Evaluated.groups (some 2) e)[2 * 0]? =
            some (before ++ three.describe (some 2) ++ after) ∧
          (Evaluated.groups none e)[2 * 0]? =
            some (before ++ three.describe none ++ after) := by
  let three := Rolled.ofFaces ⟨3, .numbered 6, []⟩ [2, 5, 1]
  let one := Rolled.ofFaces ⟨1, .numbered 4, []⟩ [2]
  obtain ⟨-, hZero, -⟩ := truncated_iff (some 0) three (Expr.negatedSum three one)
  obtain ⟨-, -, hAll, hEntries⟩ :=
    truncated_iff (some 2) one (Expr.negatedSum three one)
  obtain ⟨-, -, hMarks⟩ := hEntries 0
  have hDice : three.rolls ≠ [] := List.cons_ne_nil _ _
  exact ⟨three, one, _, rfl, rfl, rfl, by decide, hDice, hZero rfl hDice, rfl,
    hAll rfl, rfl, hMarks three rfl⟩

/-- With a limit of zero, two dice are listed as an empty entry and the note. -/
theorem Rolled.not_listed_zero :
    (ofFaces ⟨2, .numbered 6, []⟩ [3, 3]).describe (some 0) = ", 2 more..." ∧
      ", ".intercalate ((ofFaces ⟨2, .numbered 6, []⟩ [3, 3]).listing (some 0)) =
        "2 more..." ∧
      (ofFaces ⟨2, .numbered 6, []⟩ [3, 3]).describe (some 0) ≠
        ", ".intercalate
          ((ofFaces ⟨2, .numbered 6, []⟩ [3, 3]).listing (some 0)) := by
  decide

end DiceFormula
