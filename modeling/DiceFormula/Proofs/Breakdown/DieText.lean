import DiceFormula.Proofs.Value
import DiceFormula.Rolled
import DiceFormula.Text.Blank

/-!
# What the text of a die tells

A die is listed with its face and its marks, and everything that decides
whether and for what it counts can be read off again: the face is a run of
digits behind an optional sign, each mark has a character of its own, and the
value in brackets is there just when it is not the face. The dice of a set are
told apart by the commas between them, which no die has in its text.

Texts are taken apart from the front. Each lemma is about a piece and whatever
stands behind it, provided that it starts with a character the piece does not
have.

## Main results

* `Die.text_inj` — what counts of a die can be told from its text.
* `listing_append_inj` — a listing can be told from what stands behind it.
* `Rolled.SameTexts.countedValues_eq` — dice with the same texts count for the
  same values.
-/

namespace DiceFormula

/-! ## Boundaries -/

/-- A piece ends where the first character is that it cannot have. -/
theorem append_inj_of_boundary {p : Char → Bool} {x y r s : List Char}
    (hx : ∀ c ∈ x, p c = true) (hy : ∀ c ∈ y, p c = true)
    (hr : ∀ c ∈ r.head?, p c = false) (hs : ∀ c ∈ s.head?, p c = false)
    (h : x ++ r = y ++ s) : x = y ∧ r = s := by
  have hTake : ∀ {u v : List Char}, (∀ c ∈ u, p c = true) →
      (∀ c ∈ v.head?, p c = false) → (u ++ v).takeWhile p = u := by
    intro u v hu hv
    rw [List.takeWhile_append_of_pos hu]
    cases v with
    | nil => simp
    | cons c v => simp [hv c rfl]
  have hPiece : x = y := by
    rw [← hTake hx hr, h, hTake hy hs]
  subst hPiece
  exact ⟨rfl, List.append_cancel_left h⟩

/-- The mark, if there is one. -/
def mark (c : Char) (present : Bool) : List Char := if present then [c] else []

theorem toList_mark {c : Char} {text : String} {present : Bool}
    (h : text.toList = [c]) :
    (if present then text else "").toList = mark c present := by
  cases present
  · rfl
  · exact h

theorem head?_mark_append {c : Char} {present : Bool} {s l : List Char}
    (h : ∀ d ∈ s.head?, d ∈ l) :
    ∀ d ∈ (mark c present ++ s).head?, d ∈ c :: l := by
  intro d hd
  cases present with
  | false => exact List.mem_cons_of_mem c (h d hd)
  | true =>
      cases hd
      exact List.mem_cons_self

/-- Whether there is a mark can be told if nothing behind it starts like it. -/
theorem mark_append_inj {c : Char} {a b : Bool} {r s l : List Char}
    (hr : ∀ d ∈ r.head?, d ∈ l) (hs : ∀ d ∈ s.head?, d ∈ l) (hc : c ∉ l)
    (h : mark c a ++ r = mark c b ++ s) : a = b ∧ r = s := by
  cases a with
  | false =>
      cases b with
      | false => exact ⟨rfl, h⟩
      | true =>
          have hEq : r = c :: s := h
          exact absurd (hr c (by rw [hEq]; rfl)) hc
  | true =>
      cases b with
      | false =>
          have hEq : c :: r = s := h
          exact absurd (hs c (by rw [← hEq]; rfl)) hc
      | true => exact ⟨rfl, (List.cons.inj h).2⟩

/-! ## Dice -/

namespace Die

/-- The value in brackets, if it is not the face. -/
def bracket (die : Die) : List Char :=
  if die.isClamped then '[' :: ((Value.text die.counted).toList ++ [']']) else []

/-- The marks of a die and its value. -/
def marks (die : Die) : List Char :=
  mark '!' die.isExploded ++ (mark 'd' die.isDropped ++
    (mark 'r' die.isRerolled ++ die.bracket))

theorem toList_text (die : Die) :
    die.text.toList = (Value.text die.face).toList ++ die.marks := by
  have hBracket : (if die.isClamped then
      "[" ++ Value.text die.counted ++ "]" else "").toList = die.bracket := by
    unfold bracket
    split
    · simp only [String.toList_append]
      rfl
    · rfl
  rw [text, String.toList_append, String.toList_append, String.toList_append,
    String.toList_append, hBracket, toList_mark (c := '!') rfl,
    toList_mark (c := 'd') rfl, toList_mark (c := 'r') rfl, marks]
  simp only [List.append_assoc]

theorem head?_bracket (die : Die) : ∀ c ∈ die.bracket.head?, c ∈ ['['] := by
  unfold bracket
  split
  · intro c hc
    cases hc
    exact List.mem_singleton_self _
  · exact nofun

theorem head?_rerolled (die : Die) :
    ∀ c ∈ (mark 'r' die.isRerolled ++ die.bracket).head?, c ∈ ['r', '['] :=
  head?_mark_append die.head?_bracket

theorem head?_dropped (die : Die) :
    ∀ c ∈ (mark 'd' die.isDropped ++
      (mark 'r' die.isRerolled ++ die.bracket)).head?, c ∈ ['d', 'r', '['] :=
  head?_mark_append die.head?_rerolled

/-- The characters that may stand behind the face. -/
theorem head?_marks (die : Die) :
    ∀ c ∈ die.marks.head?, c ∈ ['!', 'd', 'r', '['] :=
  head?_mark_append die.head?_dropped

theorem bracket_inj {a b : Die} (hFace : a.face = b.face)
    (h : a.bracket = b.bracket) : a.counted = b.counted := by
  have hClamped : ∀ die : Die, die.isClamped = false → die.counted = die.face := by
    intro die hDie
    simpa [isClamped] using hDie
  unfold bracket at h
  cases ha : a.isClamped with
  | false =>
      cases hb : b.isClamped with
      | false => rw [hClamped a ha, hClamped b hb, hFace]
      | true => simp [ha, hb] at h
  | true =>
      cases hb : b.isClamped with
      | false => simp [ha, hb] at h
      | true =>
          simp only [ha, hb, if_true, List.cons.injEq, true_and] at h
          exact Value.text_injective (List.append_cancel_right h)

/-- What counts of a die can be told from its text. -/
theorem text_inj {a b : Die} (h : a.text.toList = b.text.toList) :
    a.face = b.face ∧ a.isExploded = b.isExploded ∧
      a.isDropped = b.isDropped ∧ a.isRerolled = b.isRerolled ∧
      a.counted = b.counted := by
  have hDigit : ∀ v : Value, ∀ c ∈ (Value.text v).toList,
      (c.isDigit || c == '-') = true := by
    intro v c hc
    simpa using Value.mem_text hc
  have hBehind : ∀ die : Die, ∀ c ∈ die.marks.head?,
      (c.isDigit || c == '-') = false := by
    intro die c hc
    have hAll : ∀ c ∈ ['!', 'd', 'r', '['], (c.isDigit || c == '-') = false := by
      decide
    exact hAll c (head?_marks die c hc)
  rw [toList_text, toList_text] at h
  obtain ⟨hText, hMarks⟩ := append_inj_of_boundary (hDigit a.face)
    (hDigit b.face) (hBehind a) (hBehind b) h
  have hFace := Value.text_injective hText
  obtain ⟨hExploded, hMarks⟩ := mark_append_inj (head?_dropped a)
    (head?_dropped b) (by decide) hMarks
  obtain ⟨hDropped, hMarks⟩ := mark_append_inj (head?_rerolled a)
    (head?_rerolled b) (by decide) hMarks
  obtain ⟨hRerolled, hMarks⟩ := mark_append_inj (head?_bracket a)
    (head?_bracket b) (by decide) hMarks
  exact ⟨hFace, hExploded, hDropped, hRerolled, bracket_inj hFace hMarks⟩

end Die

/-! ## Listings -/

/-- The characters that the texts of dice are made of. -/
def isDieChar (c : Char) : Bool :=
  c.isDigit || ['-', '!', 'd', 'r', '[', ']'].contains c

theorem Die.isDieChar_text {die : Die} :
    ∀ c ∈ die.text.toList, isDieChar c = true := by
  have hValue : ∀ v : Value, ∀ c ∈ (Value.text v).toList,
      isDieChar c = true := by
    intro v c hc
    rcases Value.mem_text hc with hDigit | rfl
    · rw [isDieChar, hDigit, Bool.true_or]
    · decide
  have hMark : ∀ (m : Char) (present : Bool), isDieChar m = true →
      ∀ c ∈ mark m present, isDieChar c = true := by
    intro m present hm c hc
    unfold mark at hc
    split at hc
    · rwa [List.mem_singleton.1 hc]
    · cases hc
  intro c hc
  simp only [toList_text, marks, List.mem_append] at hc
  rcases hc with hc | hc | hc | hc | hc
  · exact hValue die.face c hc
  · exact hMark '!' die.isExploded (by decide) c hc
  · exact hMark 'd' die.isDropped (by decide) c hc
  · exact hMark 'r' die.isRerolled (by decide) c hc
  · unfold bracket at hc
    split at hc
    · rw [List.mem_cons, List.mem_append, List.mem_singleton] at hc
      rcases hc with rfl | hc | rfl
      · decide
      · exact hValue die.counted c hc
      · decide
    · cases hc

theorem Die.text_toList_ne_nil (die : Die) : die.text.toList ≠ [] := by
  rw [toList_text]
  exact List.append_ne_nil_of_left_ne_nil (Value.text_toList_ne_nil die.face) _

/-- What is in a joined text comes from the separator or from one of the parts. -/
theorem mem_intercalate {c : Char} {separator : String} {texts : List String}
    (h : c ∈ (separator.intercalate texts).toList) :
    c ∈ separator.toList ∨ ∃ text ∈ texts, c ∈ text.toList := by
  induction texts with
  | nil => simp at h
  | cons text texts ih =>
      cases texts with
      | nil =>
          rw [String.intercalate_singleton] at h
          exact .inr ⟨text, List.mem_cons_self, h⟩
      | cons next texts =>
          rw [String.intercalate_cons_cons, String.toList_append,
            String.toList_append, List.mem_append, List.mem_append] at h
          rcases h with (hText | hSeparator) | hMore
          · exact .inr ⟨text, List.mem_cons_self, hText⟩
          · exact .inl hSeparator
          · exact (ih hMore).imp_right fun ⟨other, hMem, hc⟩ =>
              ⟨other, List.mem_cons_of_mem text hMem, hc⟩

/-- The texts of some dice. -/
def AreDieTexts (texts : List (List Char)) : Prop :=
  ∀ x ∈ texts, x ≠ [] ∧ ∀ c ∈ x, isDieChar c = true

/-- The characters that a text behind a listing starts with. -/
def listingEnds : List Char := [')', ' ']

/-- What stands behind the first die of a listing. -/
def behindFirst (texts : List (List Char)) (rest : List Char) : List Char :=
  match texts with
  | [] => rest
  | text :: texts =>
    ',' :: ' ' :: ([',', ' '].intercalate (text :: texts) ++ rest)

theorem intercalate_cons_append (x : List Char) (xs : List (List Char))
    (rest : List Char) :
    [',', ' '].intercalate (x :: xs) ++ rest = x ++ behindFirst xs rest := by
  cases xs with
  | nil => simp [behindFirst]
  | cons y ys => simp [behindFirst]

theorem head?_behindFirst {xs : List (List Char)} {rest : List Char}
    (h : ∀ c ∈ rest.head?, c ∈ listingEnds) :
    ∀ c ∈ (behindFirst xs rest).head?, isDieChar c = false := by
  have hEnds : ∀ c ∈ ',' :: listingEnds, isDieChar c = false := by decide
  intro c hc
  cases xs with
  | nil => exact hEnds c (List.mem_cons_of_mem _ (h c hc))
  | cons x xs =>
      cases hc
      decide

/-- Behind the last die no listing goes on. -/
theorem rest_ne_behindFirst {y : List Char} {ys : List (List Char)}
    {r s : List Char} (h : ∀ c ∈ r.head?, c ∈ listingEnds) :
    r ≠ behindFirst (y :: ys) s := by
  intro hEq
  have hComma : ',' ∈ listingEnds := h ',' (by rw [hEq]; rfl)
  exact absurd hComma (by decide)

/-- Where a listing ends there is no die. -/
theorem rest_ne_listing {y : List Char} {ys : List (List Char)}
    {r s : List Char} (hDice : AreDieTexts (y :: ys))
    (h : ∀ c ∈ r.head?, c ∈ listingEnds) :
    r ≠ [',', ' '].intercalate (y :: ys) ++ s := by
  have hEnds : ∀ c ∈ listingEnds, isDieChar c = false := by decide
  intro hEq
  obtain ⟨hNil, hChars⟩ := hDice y List.mem_cons_self
  obtain ⟨c, t, rfl⟩ := List.exists_cons_of_ne_nil hNil
  rw [intercalate_cons_append] at hEq
  have hEnd := hEnds c (h c (by rw [hEq]; rfl))
  rw [hChars c List.mem_cons_self] at hEnd
  cases hEnd

/-- A listing ends where a parenthesis or a blank follows a die, and nowhere
else: the blanks it has itself follow its commas. -/
theorem listing_append_inj {xs ys : List (List Char)} {r s : List Char}
    (hxs : AreDieTexts xs) (hys : AreDieTexts ys)
    (hr : ∀ c ∈ r.head?, c ∈ listingEnds) (hs : ∀ c ∈ s.head?, c ∈ listingEnds)
    (h : [',', ' '].intercalate xs ++ r = [',', ' '].intercalate ys ++ s) :
    xs = ys ∧ r = s := by
  induction xs generalizing ys with
  | nil =>
      cases ys with
      | nil => exact ⟨rfl, h⟩
      | cons y ys => exact absurd h (rest_ne_listing hys hr)
  | cons x xs ih =>
      cases ys with
      | nil => exact absurd h.symm (rest_ne_listing hxs hs)
      | cons y ys =>
          rw [intercalate_cons_append, intercalate_cons_append] at h
          obtain ⟨rfl, hMore⟩ := append_inj_of_boundary
            (hxs x List.mem_cons_self).2 (hys y List.mem_cons_self).2
            (head?_behindFirst hr) (head?_behindFirst hs) h
          cases xs with
          | nil =>
              cases ys with
              | nil => exact ⟨rfl, hMore⟩
              | cons y' ys => exact absurd hMore (rest_ne_behindFirst hr)
          | cons x' xs =>
              cases ys with
              | nil => exact absurd hMore.symm (rest_ne_behindFirst hs)
              | cons y' ys =>
                  obtain ⟨hEq, hRest⟩ := ih
                    (fun z hz => hxs z (List.mem_cons_of_mem x hz))
                    (fun z hz => hys z (List.mem_cons_of_mem x hz))
                    (List.cons.inj (List.cons.inj hMore).2).2
                  exact ⟨by rw [hEq], hRest⟩

/-! ## Sets -/

namespace Rolled

/-- The dice of the sets have the same texts. -/
def SameTexts (a b : Rolled) : Prop :=
  (a.rolls.map fun die => die.text.toList) =
    (b.rolls.map fun die => die.text.toList)

theorem describe_none (rolled : Rolled) :
    rolled.describe none = ", ".intercalate (rolled.rolls.map Die.text) := by
  simp [describe]

theorem toList_describe (rolled : Rolled) :
    (rolled.describe none).toList =
      [',', ' '].intercalate (rolled.rolls.map fun die => die.text.toList) := by
  rw [describe_none, String.toList_intercalate, List.map_map]
  rfl

theorem areDieTexts_rolls (rolled : Rolled) :
    AreDieTexts (rolled.rolls.map fun die => die.text.toList) := by
  intro x hx
  obtain ⟨die, -, rfl⟩ := List.mem_map.1 hx
  exact ⟨die.text_toList_ne_nil, Die.isDieChar_text⟩

/-- The text of a set can be told from what stands behind it. -/
theorem describe_append_inj {a b : Rolled} {r s : List Char}
    (hr : ∀ c ∈ r.head?, c ∈ listingEnds) (hs : ∀ c ∈ s.head?, c ∈ listingEnds)
    (h : (a.describe none).toList ++ r = (b.describe none).toList ++ s) :
    SameTexts a b ∧ r = s := by
  rw [toList_describe, toList_describe] at h
  exact listing_append_inj a.areDieTexts_rolls b.areDieTexts_rolls hr hs h

/-- Dice with the same texts count for the same values. -/
theorem SameTexts.countedValues_eq {a b : Rolled} (h : SameTexts a b) :
    a.countedValues = b.countedValues := by
  have hLists : ∀ xs ys : List Die,
      (xs.map fun die => die.text.toList) =
        (ys.map fun die => die.text.toList) →
      (xs.filter Die.isKept).map Die.counted =
        (ys.filter Die.isKept).map Die.counted := by
    intro xs
    induction xs with
    | nil =>
        intro ys hEq
        cases ys with
        | nil => rfl
        | cons y ys => cases hEq
    | cons x xs ih =>
        intro ys hEq
        cases ys with
        | nil => cases hEq
        | cons y ys =>
            rw [List.map_cons, List.map_cons, List.cons.injEq] at hEq
            obtain ⟨-, -, hDropped, -, hCounted⟩ := Die.text_inj hEq.1
            have hKept : x.isKept = y.isKept := by
              have hNot : ∀ die : Die, die.isKept = !die.isDropped := by
                intro die
                simp [Die.isKept, Die.isDropped]
              rw [hNot, hNot, hDropped]
            have hMore := ih ys hEq.2
            simp only [List.filter_cons, hKept]
            split
            · rw [List.map_cons, List.map_cons, hCounted, hMore]
            · exact hMore
  exact hLists a.rolls b.rolls h

theorem SameTexts.total_eq {a b : Rolled} (h : SameTexts a b) :
    a.total = b.total := by
  rw [total, total, h.countedValues_eq]

theorem SameTexts.describe_eq {a b : Rolled} (h : SameTexts a b) :
    a.describe none = b.describe none := by
  unfold SameTexts at h
  apply String.toList_inj.1
  rw [toList_describe, toList_describe, h]

end Rolled

end DiceFormula
