import DiceFormula.Expr.Layout
import DiceFormula.Proofs.Notation.DiceText
import DiceFormula.Proofs.Notation.Expr

/-!
# Reading the canonical notation back

The layout of an expression adds parentheses where an operand would otherwise
be torn apart. An expression that was read needs none of them: whatever stood
in parentheses is a group, and the grammar admits nothing looser at the place
of an operand than what the layout leaves alone. The levels of the grammar and
the kinds of the layout are two names for one order, and `Level.rank` compares
them.

## Main results

* `Expr.derives_text` — the canonical notation of a flat, writable expression
  denotes the expression.
* `Expr.Derives.flat`, `Expr.Derives.writable` — the expressions that are read
  are flat and writable.
* `canonical_round_trip` — what was read is read back from its canonical
  notation, which has no parentheses but those of groups.
-/

namespace DiceFormula

open Text Text.Reader

namespace Expr

variable {δ : Type}

/-! ## Levels -/

/-- How loose a level is. -/
def Level.rank : Level → Nat
  | atom => 0
  | signed => 1
  | product => 2
  | sum => 3

/-- The level at which expressions of a kind are written. -/
def Level.ofKind : Kind → Level
  | .value => atom
  | .unary => signed
  | .multiplicative => product
  | .additive => sum

/-- What is written at a level may stand at any looser one. -/
theorem Derives.weaken {level level' : Level} {s : List Char} {e : Expr Dice}
    (h : Derives level s e) (hRank : level.rank ≤ level'.rank) :
    Derives level' s e := by
  have hSigned : ∀ {e}, Derives .atom s e → Derives .signed s e :=
    fun h => .padded h (isPadded_self s)
  cases level with
  | atom =>
      cases level' with
      | atom => exact h
      | signed => exact hSigned h
      | product => exact .signed (hSigned h)
      | sum => exact .product (.signed (hSigned h))
  | signed =>
      cases level' with
      | atom => simp [Level.rank] at hRank
      | signed => exact h
      | product => exact .signed h
      | sum => exact .product (.signed h)
  | product =>
      cases level' with
      | atom | signed => simp [Level.rank] at hRank
      | product => exact h
      | sum => exact .product h
  | sum =>
      cases level' with
      | atom | signed | product => simp [Level.rank] at hRank
      | sum => exact h

/-- A sign needs parentheses behind it unless a signed operand follows. -/
theorem needsParens_unary_iff {k : Kind} :
    Kind.unary.needsParens k false = false ↔
      (Level.ofKind k).rank ≤ Level.signed.rank := by
  cases k <;> decide

/-- On the left of an operation its own level needs no parentheses. -/
theorem needsParens_left_iff {op : Op} {k : Kind} :
    op.kind.needsParens k false = false ↔
      (Level.ofKind k).rank ≤ (Level.ofKind op.kind).rank := by
  cases op <;> cases k <;> decide

/-- On the right of an operation its own level needs parentheses. -/
theorem needsParens_right_iff {op : Op} {k : Kind} :
    op.kind.needsParens k true = false ↔
      (Level.ofKind k).rank < (Level.ofKind op.kind).rank := by
  cases op <;> cases k <;> decide

/-! ## Flat and writable expressions -/

/-- No operand needs parentheses other than those of a group. -/
def Flat : Expr δ → Prop
  | num _ => True
  | dice _ => True
  | group e => e.Flat
  | neg e => Kind.unary.needsParens e.kind false = false ∧ e.Flat
  | binary op a b =>
    op.kind.needsParens a.kind false = false ∧
      op.kind.needsParens b.kind true = false ∧ a.Flat ∧ b.Flat

/-- The expression can be written: its numbers are not negative, its sets of
dice have a notation, and it divides by no written zero. -/
def Writable : Expr Dice → Prop
  | num n => 0 ≤ n.toInt
  | dice d => d.Writable
  | group e => e.Writable
  | neg e => e.Writable
  | binary op a b =>
    a.Writable ∧ b.Writable ∧ (op = .div → ¬ b.IsWrittenZero)

/-- The number of groups. -/
def groupCount : Expr δ → Nat
  | num _ => 0
  | dice _ => 0
  | group e => e.groupCount + 1
  | neg e => e.groupCount
  | binary _ a b => a.groupCount + b.groupCount

theorem Derives.writable {level : Level} {s : List Char} {e : Expr Dice}
    (h : Derives level s e) : e.Writable := by
  induction h with
  | dice hDice => exact hDice.writable
  | num hNum =>
      obtain ⟨n, -, hn⟩ := hNum
      simp only [Writable]
      omega
  | group _ ih => exact ih
  | padded _ _ ih => exact ih
  | neg _ _ ih => exact ih
  | signed _ ih => exact ih
  | product _ ih => exact ih
  | mul _ _ _ iha ihb => exact ⟨iha, ihb, by simp⟩
  | div _ _ _ hZero iha ihb => exact ⟨iha, ihb, fun _ => hZero⟩
  | add _ _ _ iha ihb => exact ⟨iha, ihb, by simp⟩
  | sub _ _ _ iha ihb => exact ⟨iha, ihb, by simp⟩

theorem Derives.rank_le {level : Level} {s : List Char} {e : Expr Dice}
    (h : Derives level s e) : (Level.ofKind e.kind).rank ≤ level.rank := by
  induction h with
  | dice | num | group | neg | mul | div | add | sub => exact Nat.le_refl _
  | padded _ _ ih => exact Nat.le_trans ih (by decide)
  | signed _ ih => exact Nat.le_trans ih (by decide)
  | product _ ih => exact Nat.le_trans ih (by decide)

theorem Derives.flat {level : Level} {s : List Char} {e : Expr Dice}
    (h : Derives level s e) : e.Flat := by
  have hBinary : ∀ {op : Op} {a b : Expr Dice} {left right : Level}
      {s t : List Char}, Derives left s a → Derives right t b →
      left.rank ≤ (Level.ofKind op.kind).rank →
      right.rank < (Level.ofKind op.kind).rank → a.Flat → b.Flat →
      (binary op a b).Flat := by
    intro op a b left right s t ha hb hLeft hRight hFlatA hFlatB
    exact ⟨needsParens_left_iff.2 (Nat.le_trans ha.rank_le hLeft),
      needsParens_right_iff.2 (Nat.lt_of_le_of_lt hb.rank_le hRight),
      hFlatA, hFlatB⟩
  induction h with
  | dice | num => exact trivial
  | group _ ih => exact ih
  | padded _ _ ih => exact ih
  | neg _ h ih => exact ⟨needsParens_unary_iff.2 h.rank_le, ih⟩
  | signed _ ih => exact ih
  | product _ ih => exact ih
  | mul ha _ hb iha ihb => exact hBinary ha hb (by decide) (by decide) iha ihb
  | div ha _ hb _ iha ihb => exact hBinary ha hb (by decide) (by decide) iha ihb
  | add ha _ hb iha ihb => exact hBinary ha hb (by decide) (by decide) iha ihb
  | sub ha _ hb iha ihb => exact hBinary ha hb (by decide) (by decide) iha ihb

/-! ## Layouts as lists of characters -/

variable {leaf : δ → String} {e a b : Expr δ} {op : Op}

theorem toList_text_group :
    ((group e).text leaf).toList = '(' :: ((e.text leaf).toList ++ [')']) := by
  simp [text, parenthesize, String.toList_append]

theorem toList_text_neg
    (h : Kind.unary.needsParens e.kind false = false) :
    ((neg e).text leaf).toList = '-' :: (e.text leaf).toList := by
  simp [text, parenthesize, h, String.toList_append]

theorem toList_text_binary (ha : op.kind.needsParens a.kind false = false)
    (hb : op.kind.needsParens b.kind true = false) :
    ((binary op a b).text leaf).toList =
      (a.text leaf).toList ++ [' ', op.sign, ' '] ++ (b.text leaf).toList := by
  simp [text, parenthesize, ha, hb, String.toList_append, Op.toList_symbol]

/-- The characters, besides those of operands, in a layout. -/
def layoutSigns : List Char := ['(', ')', ' ', '+', '-', '*', '/']

theorem Op.sign_mem_layoutSigns (op : Op) : op.sign ∈ layoutSigns := by
  cases op <;> decide

theorem mem_parenthesize {wrap : Bool} {text : String} {c : Char}
    (h : c ∈ (parenthesize wrap text).toList) :
    c ∈ layoutSigns ∨ c ∈ text.toList := by
  unfold parenthesize at h
  split at h
  · simp only [String.toList_append, List.mem_append] at h
    rcases h with (h | h) | h
    · rw [List.mem_singleton.1 h]
      exact .inl (by decide)
    · exact .inr h
    · rw [List.mem_singleton.1 h]
      exact .inl (by decide)
  · exact .inr h

/-- A layout is made of signs, the numbers and the texts of the sets. -/
theorem mem_text {c : Char} (h : c ∈ (e.text leaf).toList) :
    c ∈ layoutSigns ∨ IsNotation c ∨ ∃ d ∈ e.sets, c ∈ (leaf d).toList := by
  induction e with
  | num n => exact .inr (.inl (Value.isNotation_text c h))
  | dice d => exact .inr (.inr ⟨d, by simp [sets], h⟩)
  | group e ih =>
      rcases mem_parenthesize h with h | h
      · exact .inl h
      · exact ih h
  | neg e ih =>
      rw [text, String.toList_append, List.mem_append] at h
      rcases h with h | h
      · rw [List.mem_singleton.1 h]
        exact .inl (by decide)
      · rcases mem_parenthesize h with h | h
        · exact .inl h
        · exact ih h
  | binary op a b iha ihb =>
      simp only [text, String.toList_append, List.mem_append] at h
      have hLeft : (∃ d ∈ a.sets, c ∈ (leaf d).toList) →
          ∃ d ∈ (binary op a b).sets, c ∈ (leaf d).toList := by
        rintro ⟨d, hd, hc⟩
        exact ⟨d, List.mem_append_left _ hd, hc⟩
      have hRight : (∃ d ∈ b.sets, c ∈ (leaf d).toList) →
          ∃ d ∈ (binary op a b).sets, c ∈ (leaf d).toList := by
        rintro ⟨d, hd, hc⟩
        exact ⟨d, List.mem_append_right _ hd, hc⟩
      rcases h with (((h | h) | h) | h) | h
      · rcases mem_parenthesize h with h | h
        · exact .inl h
        · exact (iha h).imp_right (.imp_right hLeft)
      · rw [List.mem_singleton.1 h]
        exact .inl (by decide)
      · rw [Op.toList_symbol, List.mem_singleton] at h
        rw [h]
        exact .inl (Op.sign_mem_layoutSigns op)
      · rw [List.mem_singleton.1 h]
        exact .inl (by decide)
      · rcases mem_parenthesize h with h | h
        · exact .inl h
        · exact (ihb h).imp_right (.imp_right hRight)

/-- A flat layout has one pair of parentheses for each group. -/
theorem count_text {c : Char} (hc : c = '(' ∨ c = ')') (hFlat : e.Flat)
    (hLeaf : ∀ d ∈ e.sets, c ∉ (leaf d).toList) :
    (e.text leaf).toList.count c = e.groupCount := by
  have hSigns : c ∉ ['-'] ∧ ∀ op : Op, c ∉ [' ', op.sign, ' '] := by
    rcases hc with rfl | rfl
    · exact ⟨by decide, fun op => by cases op <;> decide⟩
    · exact ⟨by decide, fun op => by cases op <;> decide⟩
  induction e with
  | num n =>
      refine List.count_eq_zero.2 fun hMem => ?_
      have hNotation := Value.isNotation_text c hMem
      rcases hc with rfl | rfl
      · exact absurd hNotation (by decide)
      · exact absurd hNotation (by decide)
  | dice d => exact List.count_eq_zero.2 (hLeaf d (by simp [sets]))
  | group e ih =>
      have hCount := ih hFlat hLeaf
      rw [toList_text_group, List.count_cons, List.count_append, hCount]
      rcases hc with rfl | rfl
      · rfl
      · rfl
  | neg e ih =>
      obtain ⟨hWrap, hFlat⟩ := hFlat
      have hSign : ('-' == c) = false := by
        rw [beq_eq_false_iff_ne]
        exact fun hEq => hSigns.1 (by simp [← hEq])
      rw [toList_text_neg hWrap, List.count_cons, ih hFlat hLeaf, hSign]
      rfl
  | binary op a b iha ihb =>
      obtain ⟨hLeft, hRight, hFlatA, hFlatB⟩ := hFlat
      have hA := iha hFlatA fun d hd => hLeaf d (List.mem_append_left _ hd)
      have hB := ihb hFlatB fun d hd => hLeaf d (List.mem_append_right _ hd)
      rw [toList_text_binary hLeft hRight, List.count_append,
        List.count_append, List.count_eq_zero.2 (hSigns.2 op), hA, hB]
      rfl

/-! ## Reading back -/

theorem lowercaseChar_layout :
    ∀ c ∈ layoutSigns, IsLowercaseChar c := by
  have hRange : ∀ c ∈ layoutSigns,
      c.toNat < 0xC0 ∧ ¬ (65 ≤ c.toNat ∧ c.toNat ≤ 90) := by
    decide
  intro c hc
  exact isLowercaseChar_of_lt (hRange c hc).1 (hRange c hc).2

/-- The canonical notation of a flat, writable expression denotes it. -/
theorem derives_text {e : Expr Dice} (hFlat : e.Flat) (hWritable : e.Writable) :
    Derives (Level.ofKind e.kind)
      ((e.text Dice.text).toList.map lowercaseChar) e := by
  have hSigns : ∀ s : List Char, (∀ c ∈ s, c ∈ layoutSigns) →
      s.map lowercaseChar = s := fun s hs =>
    map_lowercaseChar_eq_self fun c hc => lowercaseChar_layout c (hs c hc)
  induction e with
  | num n =>
      rw [text, map_lowercaseChar_of_isNotation Value.isNotation_text]
      exact .num (Value.derives_text hWritable)
  | dice d => exact .dice (Dice.derives_text hWritable)
  | group e ih =>
      have hRank : (Level.ofKind e.kind).rank ≤ Level.sum.rank := by
        cases e.kind <;> decide
      have hInner := (ih hFlat hWritable).weaken hRank
      have hText : ((group e).text Dice.text).toList.map lowercaseChar =
          '(' :: ((e.text Dice.text).toList.map lowercaseChar ++ [')']) := by
        rw [toList_text_group, List.map_cons, List.map_append,
          hSigns [')'] (by decide), (lowercaseChar_layout '(' (by decide)).2.2]
      rw [hText]
      exact .group hInner
  | neg e ih =>
      obtain ⟨hWrap, hFlat⟩ := hFlat
      have hOperand :=
        (ih hFlat hWritable).weaken (needsParens_unary_iff.1 hWrap)
      have hText : ((neg e).text Dice.text).toList.map lowercaseChar =
          ['-'] ++ (e.text Dice.text).toList.map lowercaseChar := by
        rw [toList_text_neg hWrap, List.map_cons,
          (lowercaseChar_layout '-' (by decide)).2.2]
        rfl
      rw [hText]
      exact .neg (isPadded_self ['-']) hOperand
  | binary op a b iha ihb =>
      obtain ⟨hLeft, hRight, hFlatA, hFlatB⟩ := hFlat
      obtain ⟨hWritableA, hWritableB, hZero⟩ := hWritable
      have hA := (iha hFlatA hWritableA).weaken (needsParens_left_iff.1 hLeft)
      have hB := ihb hFlatB hWritableB
      have hRank := needsParens_right_iff.1 hRight
      have hSymbol : IsPadded [op.sign] [' ', op.sign, ' '] :=
        ⟨[' '], [' '], by decide, by decide, rfl⟩
      have hText : ((binary op a b).text Dice.text).toList.map lowercaseChar =
          (a.text Dice.text).toList.map lowercaseChar ++ [' ', op.sign, ' '] ++
            (b.text Dice.text).toList.map lowercaseChar := by
        rw [toList_text_binary hLeft hRight, List.map_append, List.map_append,
          hSigns [' ', op.sign, ' '] (by cases op <;> decide)]
      rw [hText]
      cases op with
      | add => exact .add hA hSymbol (hB.weaken (Nat.le_of_lt_succ hRank))
      | sub => exact .sub hA hSymbol (hB.weaken (Nat.le_of_lt_succ hRank))
      | mul => exact .mul hA hSymbol (hB.weaken (Nat.le_of_lt_succ hRank))
      | div =>
          exact .div hA hSymbol (hB.weaken (Nat.le_of_lt_succ hRank)) (hZero rfl)

/-- Canonical notations have none of the letters with a lowercase form that
depends on their place. -/
theorem lowercase_canonical (e : Expr Dice) :
    lowercase e.canonical.toList = e.canonical.toList.map lowercaseChar := by
  have hNotSpecial : ∀ c, c ∈ layoutSigns ∨ IsNotation c ∨ c = 'F' →
      c ≠ '\u03A3' ∧ c ≠ '\u0130' := by
    intro c hc
    constructor
    · rintro rfl
      exact absurd hc (by decide)
    · rintro rfl
      exact absurd hc (by decide)
  refine lowercase_eq_map fun c hc => hNotSpecial c ?_
  rcases mem_text hc with hSign | hNotation | ⟨d, -, hLeaf⟩
  · exact .inl hSign
  · exact .inr (.inl hNotation)
  · exact .inr (Dice.isNotation_text c hLeaf)

/-- Flat, writable expressions are read back from their canonical notation. -/
theorem read?_canonical {e : Expr Dice} (hFlat : e.Flat)
    (hWritable : e.Writable) : read? e.canonical = some e := by
  rw [read?_eq_some_iff, lowercase_canonical]
  have hRank : (Level.ofKind e.kind).rank ≤ Level.sum.rank := by
    cases e.kind <;> decide
  exact (derives_text hFlat hWritable).weaken hRank

theorem count_canonical {e : Expr Dice} {c : Char} (hc : c = '(' ∨ c = ')')
    (hFlat : e.Flat) : e.canonical.toList.count c = e.groupCount := by
  refine count_text hc hFlat fun d _ hMem => ?_
  rcases hc with rfl | rfl
  · exact absurd (Dice.isNotation_text _ hMem) (by decide)
  · exact absurd (Dice.isNotation_text _ hMem) (by decide)

end Expr

/-- An expression that was read is read back from its canonical notation, and
the parentheses of that are those of the groups it was read with. -/
theorem canonical_round_trip {text : String} {e : Expr Dice}
    (h : Expr.read? text = some e) :
    Expr.read? e.canonical = some e ∧
      e.canonical.toList.count '(' = e.groupCount ∧
      e.canonical.toList.count ')' = e.groupCount := by
  have hDerives := Expr.read?_eq_some_iff.1 h
  exact ⟨Expr.read?_canonical hDerives.flat hDerives.writable,
    Expr.count_canonical (.inl rfl) hDerives.flat,
    Expr.count_canonical (.inr rfl) hDerives.flat⟩

/-- A fate die in parentheses behind a sign, with its capital letter. -/
theorem canonical_round_trip_fate :
    Expr.read? "- (DF)" = some (.neg (.group (.dice ⟨1, .fate, []⟩))) ∧
      Expr.read? (Expr.canonical (.neg (.group (.dice ⟨1, .fate, []⟩)))) =
        some (.neg (.group (.dice ⟨1, .fate, []⟩))) := by
  have hDice : Dice.Derives ['d', 'f'] ⟨1, .fate, []⟩ :=
    .mk (s := []) (t := ['f']) (u := []) ⟨none, .nothing, rfl⟩ (by decide)
      .fate .nil (by simp)
  have hInner : Expr.Derives .sum ['d', 'f'] (.dice ⟨1, .fate, []⟩) :=
    .product (.signed (.padded (.dice hDice) (isPadded_self _)))
  have hNeg : Expr.Derives .signed ['-', ' ', '(', 'd', 'f', ')']
      (.neg (.group (.dice ⟨1, .fate, []⟩))) :=
    .neg ⟨[], [' '], by decide, by decide, rfl⟩
      (.padded (.group hInner) (isPadded_self _))
  have hLowercase : lowercase "- (DF)".toList =
      ['-', ' ', '(', 'd', 'f', ')'] := by
    decide +kernel
  have hRead : Expr.read? "- (DF)" =
      some (.neg (.group (.dice ⟨1, .fate, []⟩))) := by
    rw [Expr.read?_eq_some_iff, hLowercase]
    exact .product (.signed hNeg)
  exact ⟨hRead, (canonical_round_trip hRead).1⟩

end DiceFormula
