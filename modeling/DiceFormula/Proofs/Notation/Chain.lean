import DiceFormula.Expr.Reading
import DiceFormula.Proofs.Notation.Grammar

/-!
# Chains of operations

Sums and products are read as a first operand and a chain of further ones,
each behind its operator, and are put together from the left afterwards. The
grammar has no chains: there a sum is a shorter sum, an operator and one more
operand. This module ties the two together. A text derives a sum or a product
just when it is a first operand and a `Chain`, and a chain is read as it is
written.

Operands and operators are read with the blanks behind them, so what is left
of a text is left without the blanks at its front. Whether a piece ends is
decided by the first character after those blanks; `Follows` names the
characters it may be.

## Main results

* `sound_chain`, `complete_chain` — chains are read as they are written.
* `product_of_chain`, `exists_chain_of_product` — products are chains of signed
  operands; `sum_of_chain` and `exists_chain_of_sum` say the same of sums and
  products.
-/

namespace DiceFormula

open Text Text.Reader

/-! ## Blanks in front and behind -/

/-- What comes after the blanks in front is one of `ends`, or nothing. -/
def Follows (ends rest : List Char) : Prop :=
  ∀ c ∈ (rest.dropWhile isBlank).head?, c ∈ ends

theorem follows_nil (ends : List Char) : Follows ends [] := by
  intro c hc
  cases hc

theorem Follows.mono {ends ends' rest : List Char} (h : Follows ends rest)
    (hEnds : ends ⊆ ends') : Follows ends' rest :=
  fun c hc => hEnds (h c hc)

theorem follows_cons {ends rest : List Char} {c : Char} (hc : c ∈ ends)
    (hBlank : isBlank c = false) : Follows ends (c :: rest) := by
  intro d hd
  rw [List.dropWhile_cons_of_neg (by simp [hBlank])] at hd
  cases hd
  exact hc

theorem dropWhile_isPadded {c : Char} {o : List Char} (h : IsPadded [c] o)
    (hBlank : isBlank c = false) (rest : List Char) :
    ∃ after, (∀ d ∈ after, isBlank d = true) ∧
      (o ++ rest).dropWhile isBlank = c :: (after ++ rest) := by
  obtain ⟨before, after, hBefore, hAfter, rfl⟩ := h
  refine ⟨after, hAfter, ?_⟩
  rw [List.append_assoc, List.append_assoc, dropWhile_isBlank_append hBefore]
  simp [hBlank]

theorem follows_isPadded {ends o : List Char} {c : Char} (h : IsPadded [c] o)
    (hBlank : isBlank c = false) (hc : c ∈ ends) (rest : List Char) :
    Follows ends (o ++ rest) := by
  obtain ⟨after, -, hDrop⟩ := dropWhile_isPadded h hBlank rest
  intro d hd
  rw [hDrop] at hd
  cases hd
  exact hc

theorem padded_dropWhile {α : Type} (item : Reader α) (s : List Char) :
    padded item (s.dropWhile isBlank) = padded item s := by
  rw [padded_apply, padded_apply, dropWhile_isBlank_dropWhile]

theorem sound_padded_exactly (text : String) :
    Sound (padded (exactly text)) fun p _ => IsPadded text.toList p := by
  have hExactly : Sound (exactly text) fun p _ => p = text.toList := by
    intro s u rest h
    exact ⟨text.toList, exactly_eq_some_iff.1 h, rfl⟩
  refine hExactly.padded ?_
  rintro p q - rfl hPadded
  exact hPadded

/-- The reader takes every text of at most `depth` characters that `R` relates
to an expression, with the blanks behind it, where one of `ends` follows. -/
def CompleteWithin (depth : Nat) (reader : Reader (Expr Dice))
    (R : List Char → Expr Dice → Prop) (ends : List Char) : Prop :=
  ∀ p e rest, p.length ≤ depth → R p e → Follows ends rest →
    reader (p ++ rest) = some (e, rest.dropWhile isBlank)

/-! ## Operators -/

/-- The character of an operation. -/
def Op.sign : Op → Char
  | add => '+'
  | sub => '-'
  | mul => '*'
  | div => '/'

theorem Op.toList_symbol (op : Op) : op.symbol.toList = [op.sign] := by
  cases op <;> rfl

theorem Op.isBlank_sign (op : Op) : isBlank op.sign = false := by
  cases op <;> decide

theorem Op.sign_injective {op op' : Op} (h : op.sign = op'.sign) :
    op = op' := by
  revert h
  cases op <;> cases op' <;> decide

namespace Expr

/-- The operator is one of two, with blanks around it. -/
def IsOperator (first second : Op) (s : List Char) (op : Op) : Prop :=
  (op = first ∨ op = second) ∧ IsPadded [op.sign] s

theorem sound_operator (first second : Op) :
    Sound (operator first second) (IsOperator first second) := by
  have hOne : ∀ op, op = first ∨ op = second →
      Sound (padded (exactly op.symbol) *> pure op)
        (IsOperator first second) := by
    intro op hOp s op' rest h
    obtain ⟨u, mid, hSymbol, hPure⟩ := seqRight_eq_some_iff.1 h
    rw [pure_apply] at hPure
    cases hPure
    obtain ⟨p, hs, hp⟩ := sound_padded_exactly op.symbol s u rest hSymbol
    rw [op.toList_symbol] at hp
    exact ⟨p, hs, hOp, hp⟩
  exact (hOne first (.inl rfl)).orElse (hOne second (.inr rfl))

theorem operator_dropWhile (first second : Op) (s : List Char) :
    operator first second (s.dropWhile isBlank) = operator first second s := by
  simp only [operator, orElse_apply, seqRight_apply, padded_dropWhile]

/-- An operator is recognized by the first character after the blanks. -/
theorem padded_symbol_of_dropWhile {op : Op} {s t : List Char} {c : Char}
    (h : s.dropWhile isBlank = c :: t) :
    padded (exactly op.symbol) s =
      if op.sign = c then some ((), t.dropWhile isBlank) else none := by
  rw [padded_apply, h]
  by_cases hc : op.sign = c <;>
    simp [exactly, op.toList_symbol, List.isPrefixOf?, hc]

theorem operator_of_dropWhile {first second op : Op} {s t : List Char}
    (hOp : op = first ∨ op = second)
    (h : s.dropWhile isBlank = op.sign :: t) :
    operator first second s = some (op, t.dropWhile isBlank) := by
  simp only [operator, orElse_apply, seqRight_apply,
    padded_symbol_of_dropWhile h, pure_apply]
  by_cases hFirst : first.sign = op.sign
  · cases Op.sign_injective hFirst
    simp
  · rcases hOp with rfl | rfl
    · exact absurd rfl hFirst
    · simp [hFirst]

theorem operator_eq_none {first second : Op} {ends s : List Char}
    (h : Follows ends s) (hFirst : first.sign ∉ ends)
    (hSecond : second.sign ∉ ends) : operator first second s = none := by
  cases hs : s.dropWhile isBlank with
  | nil =>
      simp [operator, orElse_apply, seqRight_apply, padded_apply, hs, exactly,
        Op.toList_symbol, List.isPrefixOf?]
  | cons c t =>
      have hc : c ∈ ends := h c (by rw [hs]; rfl)
      have hFirst' : ¬ first.sign = c := fun hEq => hFirst (hEq ▸ hc)
      have hSecond' : ¬ second.sign = c := fun hEq => hSecond (hEq ▸ hc)
      simp [operator, orElse_apply, seqRight_apply,
        padded_symbol_of_dropWhile hs, hFirst', hSecond']

/-! ## Chains -/

/-- Operands that `R` relates to expressions, each behind one of two
operators. -/
inductive Chain (first second : Op) (R : List Char → Expr Dice → Prop) :
    List Char → List (Op × Expr Dice) → Prop
  | nil : Chain first second R [] []
  | cons {o s t : List Char} {op : Op} {e : Expr Dice}
      {ops : List (Op × Expr Dice)} (hOp : IsOperator first second o op)
      (hOperand : R s e) (hMore : Chain first second R t ops) :
      Chain first second R (o ++ s ++ t) ((op, e) :: ops)

variable {first second : Op} {R : List Char → Expr Dice → Prop}

/-- A chain can be continued at its end. -/
theorem Chain.concat {s o t : List Char} {op : Op} {e : Expr Dice}
    {ops : List (Op × Expr Dice)} (h : Chain first second R s ops)
    (hOp : IsOperator first second o op) (hOperand : R t e) :
    Chain first second R (s ++ o ++ t) (ops ++ [(op, e)]) := by
  induction h with
  | nil => simpa using Chain.cons hOp hOperand .nil
  | cons hOp' hOperand' _ ih =>
      have hChain := Chain.cons hOp' hOperand' ih
      simpa only [List.append_assoc, List.cons_append] using hChain

theorem Chain.follows {s rest ends ends' : List Char}
    {ops : List (Op × Expr Dice)} (h : Chain first second R s ops)
    (hRest : Follows ends' rest) (hEnds : ends' ⊆ ends)
    (hFirst : first.sign ∈ ends) (hSecond : second.sign ∈ ends) :
    Follows ends (s ++ rest) := by
  cases h with
  | nil => exact hRest.mono hEnds
  | @cons o s t op e ops hOp _ _ =>
      obtain ⟨hEq, hPadded⟩ := hOp
      have hMem : op.sign ∈ ends := by
        rcases hEq with rfl | rfl
        · exact hFirst
        · exact hSecond
      rw [List.append_assoc, List.append_assoc]
      exact follows_isPadded hPadded op.isBlank_sign hMem _

theorem sound_chain {operand : Reader (Expr Dice)} (h : Sound operand R) :
    Sound (furtherOperands (operator first second) operand)
      (Chain first second R) := by
  intro s ops rest hMany
  have hTurns := turns_of_many hMany
  clear hMany
  induction hTurns with
  | stop _ => exact ⟨[], rfl, .nil⟩
  | @turn s mid rest pair ops hRead _ _ ih =>
      obtain ⟨op, mid', hOperator, hRead⟩ := bind_eq_some_iff.1 hRead
      obtain ⟨e, mid'', hOperand, hPure⟩ := bind_eq_some_iff.1 hRead
      rw [pure_apply] at hPure
      cases hPure
      obtain ⟨o, rfl, ho⟩ := sound_operator first second s op mid' hOperator
      obtain ⟨p, rfl, hp⟩ := h mid' e mid hOperand
      obtain ⟨q, rfl, hq⟩ := ih
      exact ⟨o ++ p ++ q, by simp only [List.append_assoc], .cons ho hp hq⟩

/-- A chain is read up to the place where neither of its operators
follows. -/
theorem complete_chain {operand : Reader (Expr Dice)} {depth : Nat}
    {ends ends' : List Char} (hOperand : CompleteWithin depth operand R ends)
    (hSkip : ∀ s, operand (s.dropWhile isBlank) = operand s)
    (hEnds : ends' ⊆ ends) (hFirst : first.sign ∈ ends)
    (hSecond : second.sign ∈ ends) (hFirst' : first.sign ∉ ends')
    (hSecond' : second.sign ∉ ends') {p rest : List Char}
    {ops : List (Op × Expr Dice)} (hLength : p.length ≤ depth)
    (hp : Chain first second R p ops) (hRest : Follows ends' rest) :
    furtherOperands (operator first second) operand
        ((p ++ rest).dropWhile isBlank) =
      some (ops, rest.dropWhile isBlank) := by
  apply Turns.many_eq
  induction hp with
  | nil =>
      apply Turns.stop
      intro pair rest' hRead
      obtain ⟨op, mid, hOperator, -⟩ := bind_eq_some_iff.1 hRead
      rw [List.nil_append, operator_dropWhile,
        operator_eq_none hRest hFirst' hSecond'] at hOperator
      cases hOperator
  | @cons o s t op e ops hOp hs hMore ih =>
      obtain ⟨hEq, hPadded⟩ := hOp
      simp only [List.length_append] at hLength
      have hFollows := hMore.follows hRest hEnds hFirst hSecond
      obtain ⟨after, hAfter, hDrop⟩ :=
        dropWhile_isPadded hPadded op.isBlank_sign (s ++ (t ++ rest))
      have hText : (o ++ s ++ t ++ rest).dropWhile isBlank =
          op.sign :: (after ++ (s ++ (t ++ rest))) := by
        rw [← hDrop]
        simp only [List.append_assoc]
      have hOperator : operator first second
          ((o ++ s ++ t ++ rest).dropWhile isBlank) =
          some (op, (s ++ (t ++ rest)).dropWhile isBlank) := by
        rw [operator_dropWhile, operator_of_dropWhile hEq hText,
          dropWhile_isBlank_append hAfter]
      have hRead : operand ((s ++ (t ++ rest)).dropWhile isBlank) =
          some (e, (t ++ rest).dropWhile isBlank) := by
        rw [hSkip]
        exact hOperand s e (t ++ rest) (by omega) hs hFollows
      refine .turn (bind_eq_some_iff.2 ⟨op, _, hOperator,
        bind_eq_some_iff.2 ⟨e, _, hRead, rfl⟩⟩) ?_ (ih (by omega))
      have hShort := List.length_dropWhile_le isBlank (t ++ rest)
      rw [hText, List.length_cons, List.length_append, List.length_append]
      omega

/-! ## Products and sums -/

theorem isLiteralZero_iff {e : Expr Dice} :
    e.isLiteralZero = true ↔ e.IsWrittenZero := by
  constructor
  · intro h
    induction e with
    | num n =>
        simp only [isLiteralZero, beq_iff_eq] at h
        subst h
        exact .zero
    | dice d => simp [isLiteralZero] at h
    | group e ih => exact .group (ih h)
    | neg e ih => exact .neg (ih h)
    | binary op a b _ _ => simp [isLiteralZero] at h
  · intro h
    induction h with
    | zero => rfl
    | group _ ih => exact ih
    | neg _ ih => exact ih

theorem product?_append (e : Expr Dice) (ops ops' : List (Op × Expr Dice)) :
    product? e (ops ++ ops') = (product? e ops).bind (product? · ops') := by
  induction ops generalizing e with
  | nil => rfl
  | cons pair ops ih =>
      simp only [List.cons_append, product?]
      split
      · rfl
      · exact ih _

theorem sum_append (e : Expr Dice) (ops ops' : List (Op × Expr Dice)) :
    sum e (ops ++ ops') = sum (sum e ops) ops' :=
  List.foldl_append

theorem product_of_chain {s t : List Char} {a e : Expr Dice}
    {ops : List (Op × Expr Dice)} (ha : Derives .product s a)
    (hChain : Chain .mul .div (Derives .signed) t ops)
    (h : product? a ops = some e) : Derives .product (s ++ t) e := by
  induction hChain generalizing s a with
  | nil =>
      cases h
      rwa [List.append_nil]
  | @cons o u t op b ops hOp hb _ ih =>
      obtain ⟨hEq, hPadded⟩ := hOp
      rw [product?] at h
      split at h
      · cases h
      · next hZero =>
        have hNext : Derives .product (s ++ o ++ u) (.binary op a b) := by
          rcases hEq with rfl | rfl
          · exact .mul ha hPadded hb
          · refine .div ha hPadded hb fun hWritten => hZero ?_
            simp [isLiteralZero_iff.2 hWritten]
        have hAll := ih hNext h
        simpa only [List.append_assoc] using hAll

theorem sum_of_chain {s t : List Char} {a : Expr Dice}
    {ops : List (Op × Expr Dice)} (ha : Derives .sum s a)
    (hChain : Chain .add .sub (Derives .product) t ops) :
    Derives .sum (s ++ t) (sum a ops) := by
  induction hChain generalizing s a with
  | nil => rwa [List.append_nil]
  | @cons o u t op b ops hOp hb _ ih =>
      obtain ⟨hEq, hPadded⟩ := hOp
      have hNext : Derives .sum (s ++ o ++ u) (.binary op a b) := by
        rcases hEq with rfl | rfl
        · exact .add ha hPadded hb
        · exact .sub ha hPadded hb
      have hAll := ih hNext
      simp only [List.append_assoc] at hAll ⊢
      exact hAll

/-- A product is a first signed operand and a chain of further ones. -/
theorem exists_chain_of_product {s : List Char} {e : Expr Dice}
    (h : Derives .product s e) :
    ∃ p q a ops, s = p ++ q ∧ Derives .signed p a ∧
      Chain .mul .div (Derives .signed) q ops ∧ product? a ops = some e := by
  generalize hLevel : Level.product = level at h
  induction h with
  | dice | num | group | padded | neg | product | add | sub => cases hLevel
  | @signed s e h => exact ⟨s, [], e, [], by simp, h, .nil, rfl⟩
  | @mul s o t a b _ hSymbol hb iha _ =>
      obtain ⟨p, q, c, ops, rfl, hc, hChain, hProduct⟩ := iha rfl
      have hOp : IsOperator .mul .div o .mul := ⟨.inl rfl, hSymbol⟩
      refine ⟨p, q ++ o ++ t, c, ops ++ [(.mul, b)], by simp, hc,
        hChain.concat hOp hb, ?_⟩
      rw [product?_append, hProduct]
      rfl
  | @div s o t a b _ hSymbol hb hZero iha _ =>
      obtain ⟨p, q, c, ops, rfl, hc, hChain, hProduct⟩ := iha rfl
      have hOp : IsOperator .mul .div o .div := ⟨.inr rfl, hSymbol⟩
      refine ⟨p, q ++ o ++ t, c, ops ++ [(.div, b)], by simp, hc,
        hChain.concat hOp hb, ?_⟩
      have hNotZero : b.isLiteralZero = false :=
        Bool.eq_false_iff.2 fun h => hZero (isLiteralZero_iff.1 h)
      rw [product?_append, hProduct]
      simp [product?, hNotZero]

/-- A sum is a first product and a chain of further ones. -/
theorem exists_chain_of_sum {s : List Char} {e : Expr Dice}
    (h : Derives .sum s e) :
    ∃ p q a ops, s = p ++ q ∧ Derives .product p a ∧
      Chain .add .sub (Derives .product) q ops ∧ sum a ops = e := by
  generalize hLevel : Level.sum = level at h
  induction h with
  | dice | num | group | padded | neg | signed | mul | div => cases hLevel
  | @product s e h => exact ⟨s, [], e, [], by simp, h, .nil, rfl⟩
  | @add s o t a b _ hSymbol hb iha _ =>
      obtain ⟨p, q, c, ops, rfl, hc, hChain, rfl⟩ := iha rfl
      have hOp : IsOperator .add .sub o .add := ⟨.inl rfl, hSymbol⟩
      refine ⟨p, q ++ o ++ t, c, ops ++ [(.add, b)], by simp, hc,
        hChain.concat hOp hb, ?_⟩
      rw [sum_append]
      rfl
  | @sub s o t a b _ hSymbol hb iha _ =>
      obtain ⟨p, q, c, ops, rfl, hc, hChain, rfl⟩ := iha rfl
      have hOp : IsOperator .add .sub o .sub := ⟨.inr rfl, hSymbol⟩
      refine ⟨p, q ++ o ++ t, c, ops ++ [(.sub, b)], by simp, hc,
        hChain.concat hOp hb, ?_⟩
      rw [sum_append]
      rfl

end Expr

end DiceFormula
