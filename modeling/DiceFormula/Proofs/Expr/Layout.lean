import DiceFormula.Expr.Layout

/-!
# Groups and lines

The two layouts of an expression are one: with a blank between them, its groups
make up its text. Signs and parentheses go to the groups at the ends of an
operand, so they end up around the operand's text.

## Main results

* `surround_surround`, `surround_append` — where the marks around a list go.
* `intercalate_groups` — the groups in one line are the text.
-/

namespace DiceFormula

/-! ## Entries at the ends -/

theorem onLast_ne_nil {f : String → String} {groups : List String}
    (h : groups ≠ []) : onLast f groups ≠ [] := by
  cases groups with
  | nil => exact absurd rfl h
  | cons group groups => cases groups <;> simp [onLast]

theorem intercalate_modifyHead {start : String} {groups : List String}
    (h : groups ≠ []) :
    " ".intercalate (groups.modifyHead (start ++ ·)) =
      start ++ " ".intercalate groups := by
  cases groups with
  | nil => exact absurd rfl h
  | cons group groups =>
      rw [List.modifyHead_cons, String.intercalate_cons_append]

theorem intercalate_onLast {stop : String} {groups : List String}
    (h : groups ≠ []) :
    " ".intercalate (onLast (· ++ stop) groups) =
      " ".intercalate groups ++ stop := by
  induction groups with
  | nil => exact absurd rfl h
  | cons group groups ih =>
      cases groups with
      | nil => simp [onLast]
      | cons next groups =>
          have hMore : onLast (· ++ stop) (next :: groups) ≠ [] :=
            onLast_ne_nil (List.cons_ne_nil next groups)
          rw [onLast, String.intercalate_cons_of_ne_nil hMore,
            ih (List.cons_ne_nil next groups),
            String.intercalate_cons_of_ne_nil (List.cons_ne_nil next groups)]
          simp only [String.append_assoc]

theorem modifyHead_ne_nil {f : String → String} {groups : List String}
    (h : groups ≠ []) : groups.modifyHead f ≠ [] := by
  cases groups with
  | nil => exact absurd rfl h
  | cons group groups => simp

theorem surround_ne_nil {start stop : String} {groups : List String}
    (h : groups ≠ []) : surround start stop groups ≠ [] :=
  onLast_ne_nil (modifyHead_ne_nil h)

theorem intercalate_surround {start stop : String} {groups : List String}
    (h : groups ≠ []) :
    " ".intercalate (surround start stop groups) =
      start ++ " ".intercalate groups ++ stop := by
  rw [surround, intercalate_onLast (modifyHead_ne_nil h),
    intercalate_modifyHead h]

theorem parenthesizeGroups_ne_nil {wrap : Bool} {groups : List String}
    (h : groups ≠ []) : parenthesizeGroups wrap groups ≠ [] := by
  unfold parenthesizeGroups
  split
  · exact surround_ne_nil h
  · exact h

theorem intercalate_parenthesizeGroups {wrap : Bool} {groups : List String}
    (h : groups ≠ []) :
    " ".intercalate (parenthesizeGroups wrap groups) =
      parenthesize wrap (" ".intercalate groups) := by
  unfold parenthesizeGroups parenthesize
  split
  · exact intercalate_surround h
  · rfl

/-! ## Marks put around marks -/

section Surround

variable {groups left right : List String} {f g : String → String}
  {start stop : String}

theorem onLast_cons {group : String} (h : groups ≠ []) :
    onLast f (group :: groups) = group :: onLast f groups := by
  cases groups with
  | nil => exact absurd rfl h
  | cons next groups => rfl

theorem onLast_append (h : right ≠ []) :
    onLast f (left ++ right) = left ++ onLast f right := by
  induction left with
  | nil => rfl
  | cons group left ih =>
      rw [List.cons_append,
        onLast_cons (List.append_ne_nil_of_right_ne_nil left h), ih,
        List.cons_append]

theorem onLast_onLast : onLast f (onLast g groups) = onLast (f ∘ g) groups := by
  induction groups with
  | nil => rfl
  | cons group groups ih =>
      cases groups with
      | nil => rfl
      | cons next groups =>
          have hNil := List.cons_ne_nil next groups
          rw [onLast_cons hNil, onLast_cons (onLast_ne_nil hNil), ih,
            onLast_cons hNil]

theorem onLast_id : onLast (· ++ "") groups = groups := by
  induction groups with
  | nil => rfl
  | cons group groups ih =>
      cases groups with
      | nil => simp [onLast]
      | cons next groups => rw [onLast_cons (List.cons_ne_nil next groups), ih]

theorem surround_empty_right :
    surround start "" groups = groups.modifyHead (start ++ ·) :=
  onLast_id

theorem surround_empty_left :
    surround "" stop groups = onLast (· ++ stop) groups := by
  cases groups <;> simp [surround]

theorem surround_empty : surround "" "" groups = groups := by
  rw [surround_empty_left, onLast_id]

/-- What is put around a list before stands inside of what is put around it
afterwards. -/
theorem surround_surround (before after : String) :
    surround before after (surround start stop groups) =
      surround (before ++ start) (stop ++ after) groups := by
  have hComp : ((· ++ after) ∘ (· ++ stop) : String → String) =
      (· ++ (stop ++ after)) := by
    funext group
    exact String.append_assoc ..
  cases groups with
  | nil => rfl
  | cons group groups =>
      cases groups with
      | nil => simp [surround, onLast, String.append_assoc]
      | cons next groups =>
          have hNil := List.cons_ne_nil next groups
          simp only [surround, List.modifyHead_cons, onLast_cons hNil,
            onLast_cons (onLast_ne_nil hNil), onLast_onLast, hComp,
            String.append_assoc]

/-- What is put around a list goes to the two parts of it. -/
theorem surround_append {sign : String} (hLeft : left ≠ []) (hRight : right ≠ []) :
    surround start stop (left ++ sign :: right) =
      surround start "" left ++ sign :: surround "" stop right := by
  obtain ⟨group, left, rfl⟩ := List.exists_cons_of_ne_nil hLeft
  rw [surround_empty_right, surround_empty_left, surround, List.cons_append,
    List.modifyHead_cons, List.modifyHead_cons, ← List.cons_append,
    onLast_append (List.cons_ne_nil sign right), onLast_cons hRight]

end Surround

/-! ## Layouts -/

namespace Expr

variable {δ : Type} (leaf : δ → String)

theorem groups_ne_nil (e : Expr δ) : e.groups leaf ≠ [] := by
  induction e with
  | num n => exact List.cons_ne_nil _ _
  | dice d => exact List.cons_ne_nil _ _
  | group e ih => exact parenthesizeGroups_ne_nil ih
  | neg e ih => exact surround_ne_nil (parenthesizeGroups_ne_nil ih)
  | binary op a b iha _ =>
      exact List.append_ne_nil_of_left_ne_nil (parenthesizeGroups_ne_nil iha) _

/-- The groups in one line are the text. -/
theorem intercalate_groups (e : Expr δ) :
    " ".intercalate (e.groups leaf) = e.text leaf := by
  induction e with
  | num n => exact String.intercalate_singleton
  | dice d => exact String.intercalate_singleton
  | group e ih =>
      rw [groups, intercalate_parenthesizeGroups (groups_ne_nil leaf e), ih, text]
  | neg e ih =>
      have hOperand := groups_ne_nil leaf e
      rw [groups, intercalate_surround (parenthesizeGroups_ne_nil hOperand),
        intercalate_parenthesizeGroups hOperand, ih, text, String.append_empty]
  | binary op a b iha ihb =>
      have hLeft := groups_ne_nil leaf a
      have hRight := groups_ne_nil leaf b
      rw [groups, String.intercalate_append_of_ne_nil
          (parenthesizeGroups_ne_nil hLeft) (List.cons_ne_nil _ _),
        String.intercalate_cons_of_ne_nil (parenthesizeGroups_ne_nil hRight),
        intercalate_parenthesizeGroups hLeft,
        intercalate_parenthesizeGroups hRight, iha, ihb, text]
      simp only [String.append_assoc]

end Expr

end DiceFormula
