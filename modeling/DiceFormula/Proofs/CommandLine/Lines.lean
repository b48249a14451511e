import DiceFormula.CommandLine
import DiceFormula.Proofs.Breakdown.DieText
import DiceFormula.Proofs.Expr.Layout
import DiceFormula.Proofs.Notation.RoundTrip

/-!
# The lines the program reads and prints

A formula is taken from the arguments or from the first line of the input. Whatever is
shown of it, be it the view that lays all its parts open, its notation or the breakdown
of its dice, is shown in one line: nothing in it breaks a line. So the output falls
apart into the lines it was put together from, and which line is which can be told by
how it starts.

## Main results

* `Inspection.unbroken_expr` — the view of an expression is a single line.
* `firstLine_append`, `firstLine_append_return`, `firstLine_of_unbroken` — what is
  taken from the input.
* `splitOn_unlines` — the lines of what was put together from lines.
* `not_total_of_isPlain` — before the total is printed no line looks like it.
-/

namespace DiceFormula

/-- Nothing in the text breaks a line. -/
def Unbroken (text : String) : Prop := '\n' ∉ text.toList

instance (text : String) : Decidable (Unbroken text) :=
  inferInstanceAs (Decidable (¬ _))

namespace Unbroken

variable {s t : String}

theorem append (hs : Unbroken s) (ht : Unbroken t) : Unbroken (s ++ t) := by
  rw [Unbroken, String.toList_append, List.mem_append]
  rintro (h | h)
  · exact hs h
  · exact ht h

/-- No character of the text is a line break, in the form in which texts are cut. -/
theorem bne_of_mem (h : Unbroken s) : ∀ c ∈ s.toList, (c != '\n') = true :=
  fun _ hMem => bne_iff_ne.2 fun hBreak => h (hBreak ▸ hMem)

theorem of_forall_mem {P : Char → Prop} (hBreak : ¬ P '\n')
    (h : ∀ c ∈ s.toList, P c) : Unbroken s :=
  fun hMem => hBreak (h _ hMem)

theorem intercalate {separator : String} {texts : List String}
    (hSeparator : Unbroken separator) (h : ∀ text ∈ texts, Unbroken text) :
    Unbroken (separator.intercalate texts) := by
  intro hMem
  rcases mem_intercalate hMem with hBreak | ⟨text, hText, hBreak⟩
  · exact hSeparator hBreak
  · exact h text hText hBreak

end Unbroken

theorem unbroken_repr (n : Nat) : Unbroken n.repr :=
  .of_forall_mem (by decide) isNotation_repr

theorem Value.unbroken_text (v : Value) : Unbroken (Value.text v) :=
  .of_forall_mem (by decide) Value.isNotation_text

/-! ## Parts laid open -/

namespace Inspection

variable {name : String}

theorem unbroken_tuple {contents : List String} (hName : Unbroken name)
    (h : ∀ text ∈ contents, Unbroken text) : Unbroken (tuple name contents) :=
  ((hName.append (by decide)).append (.intercalate (by decide) h)).append (by decide)

theorem unbroken_fields {contents : List (String × String)} (hName : Unbroken name)
    (hLabels : ∀ entry ∈ contents, Unbroken entry.1)
    (hTexts : ∀ entry ∈ contents, Unbroken entry.2) :
    Unbroken (fields name contents) := by
  have hEntries : ∀ text ∈ contents.map fun entry => entry.1 ++ ": " ++ entry.2,
      Unbroken text :=
    List.forall_mem_map.2 fun entry hEntry =>
      ((hLabels entry hEntry).append (by decide)).append (hTexts entry hEntry)
  exact ((hName.append (by decide)).append (.intercalate (by decide) hEntries)).append
    (by decide)

theorem unbroken_list {α : Type} {view : α → String} (h : ∀ a, Unbroken (view a))
    (contents : List α) : Unbroken (list (contents.map view)) := by
  have hTexts : ∀ text ∈ contents.map view, Unbroken text :=
    List.forall_mem_map.2 fun a _ => h a
  exact ((by decide : Unbroken "[").append (.intercalate (by decide) hTexts)).append
    (by decide)

theorem unbroken_option {α : Type} {view : α → String} (h : ∀ a, Unbroken (view a))
    (content : Option α) : Unbroken (option (content.map view)) := by
  cases content with
  | none => exact (by decide : Unbroken "None")
  | some a => exact unbroken_tuple (by decide) (by simp [h])

theorem unbroken_bool (b : Bool) : Unbroken (bool b) := by
  cases b <;> decide

theorem unbroken_condition (c : Condition) : Unbroken (condition c) := by
  have hName : ∀ comparison, Unbroken (Inspection.comparison comparison) := by
    intro comparison
    cases comparison <;> decide
  exact unbroken_tuple (hName _) (by simp [Value.unbroken_text])

theorem unbroken_modifier (m : Modifier) : Unbroken (modifier m) := by
  have hCount : ∀ {n : UInt16}, ∀ text ∈ [n.toNat.repr], Unbroken text := by
    simp [unbroken_repr]
  have hBound : ∀ {v : Value}, ∀ text ∈ [Value.text v], Unbroken text := by
    simp [Value.unbroken_text]
  have hCondition := unbroken_option unbroken_condition
  cases m with
  | keep side n =>
      cases side with
      | highest => exact unbroken_tuple (by decide) hCount
      | lowest => exact unbroken_tuple (by decide) hCount
  | drop side n =>
      cases side with
      | highest => exact unbroken_tuple (by decide) hCount
      | lowest => exact unbroken_tuple (by decide) hCount
  | atLeast bound => exact unbroken_tuple (by decide) hBound
  | atMost bound => exact unbroken_tuple (by decide) hBound
  | explode c => exact unbroken_fields (by decide) (by simp [Unbroken]) (by simp [hCondition])
  | reroll c recurse =>
      exact unbroken_fields (by decide) (by simp [Unbroken])
        (by simp [hCondition, unbroken_bool])

theorem unbroken_sides (s : Sides) : Unbroken (sides s) := by
  cases s with
  | numbered n => exact unbroken_tuple (by decide) (by simp [unbroken_repr])
  | fate => decide
  | percentile => decide

theorem unbroken_dice (d : Dice) : Unbroken (dice d) :=
  unbroken_fields (by decide) (by simp [Unbroken])
    (by simp [unbroken_repr, unbroken_sides, unbroken_list unbroken_modifier])

theorem unbroken_change (c : Change) : Unbroken (change c) :=
  unbroken_fields (by decide) (by simp [Unbroken])
    (by simp [Value.unbroken_text, unbroken_modifier])

theorem unbroken_die (d : Die) : Unbroken (die d) :=
  unbroken_fields (by decide) (by simp [Unbroken])
    (by simp [Value.unbroken_text, unbroken_option unbroken_modifier,
      unbroken_list unbroken_change])

theorem unbroken_rolled (set : Rolled) : Unbroken (rolled set) :=
  unbroken_fields (by decide) (by simp [Unbroken])
    (by simp [unbroken_list unbroken_die, unbroken_dice])

/-- An expression is laid open in a single line if its sets are. -/
theorem unbroken_expr {δ : Type} {leaf : δ → String} (h : ∀ d, Unbroken (leaf d))
    (e : Expr δ) : Unbroken (expr leaf e) := by
  induction e with
  | num n => exact unbroken_tuple (by decide) (by simp [Value.unbroken_text])
  | dice d => exact unbroken_tuple (by decide) (by simp [h])
  | group e ih => exact unbroken_tuple (by decide) (by simp [ih])
  | neg e ih => exact unbroken_tuple (by decide) (by simp [ih])
  | binary o a b iha ihb =>
      have hName : Unbroken (op o) := by cases o <;> decide
      exact unbroken_tuple hName (by simp [iha, ihb])

end Inspection

/-! ## Notation and breakdown -/

/-- A layout is a single line if the texts of its sets are. -/
theorem Expr.unbroken_text {δ : Type} {leaf : δ → String} (h : ∀ d, Unbroken (leaf d))
    (e : Expr δ) : Unbroken (e.text leaf) := by
  intro hMem
  rcases mem_text hMem with hSign | hNotation | ⟨d, -, hLeaf⟩
  · exact absurd hSign (by decide)
  · exact absurd hNotation (by decide)
  · exact h d hLeaf

theorem Expr.unbroken_canonical (e : Expr Dice) : Unbroken e.canonical :=
  unbroken_text (fun _ => .of_forall_mem (by decide) Dice.isNotation_text) e

theorem Rolled.unbroken_describe (rolled : Rolled) : Unbroken (rolled.describe none) := by
  have hShown : rolled.describe none =
      ", ".intercalate (rolled.rolls.map Die.text) := by
    simp [describe]
  rw [hShown]
  refine .intercalate (by decide) (List.forall_mem_map.2 fun die _ => ?_)
  exact .of_forall_mem (by decide) Die.isDieChar_text

theorem Evaluated.unbroken_describe (e : Evaluated) : Unbroken (e.describe none) := by
  rw [Evaluated.describe, Evaluated.groups, Expr.intercalate_groups]
  exact Expr.unbroken_text Rolled.unbroken_describe e

namespace CommandLine

/-! ## Input -/

theorem request_nil (line : String) : request [] line = line := rfl

theorem request_cons (argument : String) (others : List String) (line : String) :
    request (argument :: others) line = " ".intercalate (argument :: others) := rfl

/-- A single argument is taken as it is, so every text can be asked for. -/
theorem request_singleton (text line : String) : request [text] line = text :=
  String.ext (by simp [request])

section FirstLine

variable {line : String}

theorem takeWhile_of_unbroken (h : Unbroken line) (rest : List Char) :
    (line.toList ++ '\n' :: rest).takeWhile (· != '\n') = line.toList := by
  rw [List.takeWhile_append_of_pos h.bne_of_mem,
    List.takeWhile_cons_of_neg (by decide), List.append_nil]

/-- The first line ends at the first line break. -/
theorem firstLine_append (h : Unbroken line) (hLast : line.toList.getLast? ≠ some '\r')
    (rest : String) : firstLine (line ++ "\n" ++ rest) = line := by
  have hInput : (line ++ "\n" ++ rest).toList = line.toList ++ '\n' :: rest.toList := by
    simp
  have hReturn : (line.toList.getLast? == some '\r') = false := beq_false_of_ne hLast
  rw [firstLine, hInput, takeWhile_of_unbroken h]
  simp [hReturn]

/-- A carriage return in front of the line break does not belong to the line. -/
theorem firstLine_append_return (h : Unbroken line) (rest : String) :
    firstLine (line ++ "\r\n" ++ rest) = line := by
  have hInput : (line ++ "\r\n" ++ rest).toList =
      (line ++ "\r").toList ++ '\n' :: rest.toList := by
    simp
  have hLine : Unbroken (line ++ "\r") := h.append (by decide)
  rw [firstLine, hInput, takeWhile_of_unbroken hLine]
  simp

/-- A line that is not ended is taken as it is. -/
theorem firstLine_of_unbroken (h : Unbroken line) : firstLine line = line := by
  have hNone : line.toList.contains '\n' = false :=
    Bool.eq_false_iff.2 fun hMem => h (List.contains_iff_mem.1 hMem)
  rw [firstLine, List.takeWhile_eq_self_iff.2 h.bne_of_mem, hNone]
  simp

end FirstLine

/-! ## Output -/

/-- What was put together from lines falls apart into them. Behind the last line break
nothing is left. -/
theorem splitOn_unlines {lines : List String} (h : ∀ line ∈ lines, Unbroken line) :
    (unlines lines).toList.splitOn '\n' = lines.map String.toList ++ [[]] := by
  induction lines with
  | nil => rfl
  | cons line lines ih =>
      obtain ⟨hLine, hLines⟩ := List.forall_mem_cons.1 h
      have hText : (unlines (line :: lines)).toList =
          line.toList ++ '\n' :: (unlines lines).toList := by
        simp [unlines, String.join_cons]
      have hNone : ∀ c ∈ line.toList, (c == '\n') = false :=
        fun c hc => beq_false_of_ne (bne_iff_ne.1 (hLine.bne_of_mem c hc))
      rw [hText, List.splitOn,
        List.splitOnP_append_cons_of_forall_mem hNone _ (by decide)]
      exact congrArg (line.toList :: ·) (ih hLines)

/-- The text is one line, and it does not start as the line with the total does. -/
def IsPlain (line : String) : Prop := Unbroken line ∧ line.toList.head? ≠ some 'T'

theorem isPlain_readingLines (e : Expr Dice) : ∀ line ∈ readingLines e, IsPlain line := by
  intro line hLine
  simp only [readingLines, List.mem_cons, List.not_mem_nil, or_false] at hLine
  rcases hLine with rfl | rfl | rfl
  · have hView := Inspection.unbroken_expr Inspection.unbroken_dice e
    exact ⟨Unbroken.append (by decide) hView, by simp⟩
  · exact ⟨Unbroken.append (by decide) e.unbroken_canonical, by simp⟩
  · exact ⟨Unbroken.append (by decide) (Inspection.unbroken_bool _), by simp⟩

theorem isPlain_evaluationLines (e : Evaluated) :
    ∀ line ∈ evaluationLines e, IsPlain line := by
  intro line hLine
  simp only [evaluationLines, List.mem_cons, List.not_mem_nil, or_false] at hLine
  rcases hLine with rfl | rfl | rfl
  · exact ⟨by decide, by decide⟩
  · have hView := Inspection.unbroken_expr Inspection.unbroken_rolled e
    exact ⟨Unbroken.append (by decide) hView, by simp⟩
  · exact ⟨Unbroken.append (by decide) e.unbroken_describe, by simp⟩

/-- Without a line for the total none is taken for it. -/
theorem not_total_of_isPlain {lines : List String} (h : ∀ line ∈ lines, IsPlain line) :
    ∀ line ∈ (unlines lines).toList.splitOn '\n', ¬ "Total: ".toList <+: line := by
  have hStart : ∀ {line : List Char}, "Total: ".toList <+: line →
      line.head? = some 'T' := by
    rintro line ⟨rest, rfl⟩
    rfl
  rw [splitOn_unlines fun line hLine => (h line hLine).1]
  intro line hLine hTotal
  rcases List.mem_append.1 hLine with hLine | hLine
  · obtain ⟨text, hText, rfl⟩ := List.mem_map.1 hLine
    exact (h text hText).2 (hStart hTotal)
  · rw [List.mem_singleton.1 hLine] at hTotal
    cases hStart hTotal

end CommandLine

end DiceFormula
