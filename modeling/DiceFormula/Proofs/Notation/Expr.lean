import DiceFormula.Proofs.Notation.Chain
import DiceFormula.Proofs.Notation.Dice

/-!
# Reading expressions

The reader of expressions takes exactly what the grammar derives, and a text
derives one expression at most.

What is in parentheses is read by a reader that is handed in, so both
directions go by induction on the depth: if the inner reader takes the sums of
a length, the readers of operands, signed operands, products and sums take
those of two characters more. Since every level of parentheses takes two
characters, the depth that the reader allows is never reached.

## Main results

* `sound_reader`, `complete_reader` — expressions are read as the grammar
  derives them.
* `Expr.readLowercase?_eq_some_iff` — the same for texts as a whole.
* `notation_exact` — expressions and sets of dice are read exactly as the
  grammar derives them, and a text has one reading at most.
-/

namespace DiceFormula

open Text Text.Reader

/-- What may follow an operand: the end of a group, or an operator. -/
def operandEnds : List Char := [')', '+', '-', '*', '/']

/-- What may follow a product: the end of a group, or an additive operator. -/
def productEnds : List Char := [')', '+', '-']

/-- What may follow a sum: the end of a group. -/
def sumEnds : List Char := [')']

/-! ## Boundaries -/

/-- Blanks and whatever may follow an operand do not go on a set of dice. -/
theorem clear_of_follows {after rest : List Char}
    (hAfter : ∀ c ∈ after, isBlank c = true) (hRest : Follows operandEnds rest) :
    Clear diceStops (after ++ rest) := by
  have hBlank : ∀ c, isBlank c = true → c.isDigit = false ∧ c ∉ diceStops := by
    intro c hc
    have hStops : ∀ d ∈ diceStops, isBlank d = false := by decide
    refine ⟨?_, fun hMem => ?_⟩
    · cases hDigit : c.isDigit with
      | false => rfl
      | true => simp [isBlank_of_isDigit hDigit] at hc
    · simp [hStops c hMem] at hc
  have hEnds : ∀ c ∈ operandEnds, c.isDigit = false ∧ c ∉ diceStops := by
    decide
  intro c hc
  cases after with
  | cons d after =>
      cases hc
      exact hBlank c (hAfter c List.mem_cons_self)
  | nil =>
      cases rest with
      | nil => cases hc
      | cons d rest =>
          cases hc
          cases hd : isBlank c with
          | true => exact hBlank c hd
          | false =>
              have hMem : c ∈ operandEnds := hRest c (by simp [hd])
              exact hEnds c hMem

/-- Without the letter `d` behind its digits a text has no dice in front. -/
theorem dice_reader_eq_none {s : List Char}
    (h : (s.dropWhile Char.isDigit).head? ≠ some 'd') :
    Dice.reader s = none := by
  cases hRead : Dice.reader s with
  | none => rfl
  | some r =>
      obtain ⟨p, hs, hp⟩ := sound_dice s r.1 r.2 hRead
      obtain ⟨u, v, rfl, hDigits⟩ := hp.exists_split
      have hDrop : s.dropWhile Char.isDigit = 'd' :: (v ++ r.2) := by
        rw [hs, List.append_assoc, List.dropWhile_append_of_pos hDigits]
        rfl
      exact absurd (by rw [hDrop]; rfl) h

namespace Expr

variable {inner : Reader (Expr Dice)}

/-- The operands start with a digit, a `d` or a parenthesis. -/
theorem Derives.exists_head {s : List Char} {e : Expr Dice}
    (h : Derives .atom s e) :
    ∃ c t, s = c :: t ∧ isBlank c = false ∧ c ≠ '-' := by
  have hDigit : ∀ c : Char, c.isDigit = true → isBlank c = false ∧ c ≠ '-' := by
    intro c hc
    refine ⟨isBlank_of_isDigit hc, ?_⟩
    rintro rfl
    exact absurd hc (by decide)
  cases h with
  | dice hDice =>
      obtain ⟨p, q, rfl, hDigits⟩ := hDice.exists_split
      cases p with
      | nil => exact ⟨'d', q, rfl, by decide, by decide⟩
      | cons c p =>
          exact ⟨c, p ++ 'd' :: q, rfl, hDigit c (hDigits c List.mem_cons_self)⟩
  | num hNum =>
      obtain ⟨c, t, rfl, hc⟩ := hNum.exists_head
      exact ⟨c, t, rfl, hDigit c hc⟩
  | group _ => exact ⟨'(', _, rfl, by decide, by decide⟩

/-! ## Operands -/

/-- Takes an operand, without the blanks around it. -/
def bareReader (inner : Reader (Expr Dice)) : Reader (Expr Dice) :=
  (dice <$> Dice.reader) <|> (num <$> Value.reader) <|> do
    exactly "("
    let e ← inner
    exactly ")"
    return group e

theorem atomReader_eq (inner : Reader (Expr Dice)) :
    atomReader inner = padded (bareReader inner) := rfl

theorem sound_bare (h : Sound inner (Derives .sum)) :
    Sound (bareReader inner) (Derives .atom) := by
  refine (sound_dice.map fun _ _ => .dice).orElse <|
    (sound_value.map fun _ _ => .num).orElse ?_
  intro s e rest hRead
  obtain ⟨u, mid, hOpen, hRead⟩ := bind_eq_some_iff.1 hRead
  obtain ⟨a, mid', hInner, hRead⟩ := bind_eq_some_iff.1 hRead
  obtain ⟨u', mid'', hClose, hPure⟩ := bind_eq_some_iff.1 hRead
  rw [pure_apply] at hPure
  cases hPure
  obtain ⟨p, rfl, hp⟩ := h mid a mid' hInner
  refine ⟨'(' :: (p ++ [')']), ?_, .group hp⟩
  rw [exactly_eq_some_iff.1 hOpen, exactly_eq_some_iff.1 hClose]
  simp

theorem complete_bare {depth : Nat}
    (h : CompleteWithin depth inner (Derives .sum) sumEnds)
    {p rest : List Char} {e : Expr Dice} (hLength : p.length ≤ depth + 2)
    (hp : Derives .atom p e) (hRest : Clear diceStops rest) :
    bareReader inner (p ++ rest) = some (e, rest) := by
  simp only [bareReader, orElse_apply, map_apply]
  cases hp with
  | dice hDice =>
      rw [complete_dice p _ rest hDice hRest]
      rfl
  | @num _ n hNum =>
      have hDigits : ∀ c ∈ p, c.isDigit = true := by
        obtain ⟨k, hNumeral, -⟩ := hNum
        exact hNumeral.isDigit
      have hDrop : (p ++ rest).dropWhile Char.isDigit = rest := by
        rw [List.dropWhile_append_of_pos hDigits]
        cases rest with
        | nil => rfl
        | cons c rest => simp [(hRest c rfl).1]
      have hNoDice : Dice.reader (p ++ rest) = none :=
        dice_reader_eq_none (by
          rw [hDrop]
          exact hRest.head?_ne (by decide))
      rw [hNoDice, complete_value diceStops p n rest hNum hRest]
      rfl
  | @group s e hSum =>
      have hText : '(' :: (s ++ [')']) ++ rest = '(' :: (s ++ ')' :: rest) := by
        simp
      have hNoDice : Dice.reader ('(' :: (s ++ ')' :: rest)) = none :=
        dice_reader_eq_none (by
          rw [List.dropWhile_cons_of_neg (by decide)]
          simp)
      have hNoValue : Value.reader ('(' :: (s ++ ')' :: rest)) = none :=
        value_reader_eq_none (by
          intro c hc
          cases hc
          decide)
      have hInner : inner (s ++ ')' :: rest) = some (e, ')' :: rest) := by
        have hShort : s.length ≤ depth := by
          simp only [List.length_cons, List.length_append,
            List.length_nil] at hLength
          omega
        have hClose : Follows sumEnds (')' :: rest) :=
          follows_cons (by decide) (by decide)
        rw [h s e _ hShort hSum hClose,
          List.dropWhile_cons_of_neg (by decide)]
      rw [hText, hNoDice, hNoValue]
      refine bind_eq_some_iff.2 ⟨(), _, exactly_append "(" _, ?_⟩
      refine bind_eq_some_iff.2 ⟨e, _, hInner, ?_⟩
      exact bind_eq_some_iff.2 ⟨(), rest, exactly_append ")" rest, rfl⟩

/-! ## Signed operands -/

theorem unaryReader_of_sign {s t : List Char}
    (h : s.dropWhile isBlank = '-' :: t) :
    unaryReader inner s =
      (neg <$> unaryReader inner) (t.dropWhile isBlank) := by
  have hSign : padded (exactly "-") s = some ((), t.dropWhile isBlank) := by
    rw [padded_apply, h]
    rfl
  have hShorter : (t.dropWhile isBlank).length < s.length := by
    have hText := List.length_dropWhile_le isBlank s
    have hMore := List.length_dropWhile_le isBlank t
    rw [h, List.length_cons] at hText
    omega
  obtain ⟨signs, mid, hTurns⟩ :=
    exists_turns (padded (exactly "-")) (t.dropWhile isBlank)
  have hMany := (Turns.turn hSign hShorter hTurns).many_eq
  simp only [unaryReader, bind_apply, map_apply, hMany, hTurns.many_eq,
    Option.bind_some]
  cases atomReader inner mid <;> rfl

theorem unaryReader_of_no_sign {s : List Char}
    (h : (s.dropWhile isBlank).head? ≠ some '-') :
    unaryReader inner s = atomReader inner s := by
  have hSign : padded (exactly "-") s = none := by
    rw [padded_apply, Option.map_eq_none_iff]
    cases hs : s.dropWhile isBlank with
    | nil => rfl
    | cons c t =>
        rw [hs] at h
        have hc : ¬ '-' = c := fun hEq => h (by rw [hEq]; rfl)
        simp [exactly, List.isPrefixOf?, hc]
  simp only [unaryReader, bind_apply, many_of_none hSign, Option.bind_some]
  cases atomReader inner s <;> rfl

theorem unaryReader_dropWhile (s : List Char) :
    unaryReader inner (s.dropWhile isBlank) = unaryReader inner s := by
  by_cases h : (s.dropWhile isBlank).head? = some '-'
  · obtain ⟨t, ht⟩ := List.head?_eq_some_iff.1 h
    rw [unaryReader_of_sign ht]
    exact unaryReader_of_sign (by rw [dropWhile_isBlank_dropWhile, ht])
  · rw [unaryReader_of_no_sign h, unaryReader_of_no_sign
      (by rwa [dropWhile_isBlank_dropWhile]), atomReader_eq, padded_dropWhile]

theorem sound_unary (h : Sound inner (Derives .sum)) :
    Sound (unaryReader inner) (Derives .signed) := by
  have hAtom : Sound (atomReader inner) (Derives .signed) :=
    (sound_bare h).padded fun _ _ _ hBare hBlanks => .padded hBare hBlanks
  intro s e rest hRead
  obtain ⟨signs, mid, hMany, hMore⟩ := bind_eq_some_iff.1 hRead
  obtain ⟨a, mid', hOperand, hPure⟩ := bind_eq_some_iff.1 hMore
  rw [pure_apply] at hPure
  cases hPure
  have hTurns := turns_of_many hMany
  clear hRead hMany hMore
  induction hTurns with
  | stop _ => exact hAtom _ a rest hOperand
  | @turn s mid mid' u signs hSign _ _ ih =>
      obtain ⟨o, rfl, ho⟩ := sound_padded_exactly "-" s u mid hSign
      obtain ⟨p, rfl, hp⟩ := ih hOperand
      exact ⟨o ++ p, by simp, .neg ho hp⟩

theorem complete_unary {depth : Nat}
    (h : CompleteWithin depth inner (Derives .sum) sumEnds) :
    CompleteWithin (depth + 2) (unaryReader inner) (Derives .signed)
      operandEnds := by
  intro p e rest hLength hp hRest
  generalize hLevel : Level.signed = level at hp
  induction hp with
  | dice | num | group | signed | mul | div | product | add | sub => cases hLevel
  | @padded s t e hAtom hBlanks =>
      obtain ⟨before, after, hBefore, hAfter, rfl⟩ := id hBlanks
      obtain ⟨c, u, rfl, hc, hNoSign⟩ := hAtom.exists_head
      have hStart : (before ++ c :: u ++ after ++ rest).dropWhile isBlank =
          c :: (u ++ (after ++ rest)) := by
        rw [List.append_assoc, List.append_assoc,
          dropWhile_isBlank_append hBefore]
        simp [hc]
      have hShort : (c :: u).length ≤ depth + 2 := by
        simp only [List.length_append] at hLength
        omega
      rw [unaryReader_of_no_sign (by rw [hStart]; simpa using hNoSign),
        atomReader_eq]
      refine padded_eq_some hBlanks ?_ (by simp) fun after hAfter =>
        complete_bare h hShort hAtom (clear_of_follows hAfter hRest)
      intro d hd
      cases hd
      exact hc
  | @neg s t e hSign _ ih =>
      obtain ⟨after, hAfter, hDrop⟩ :=
        dropWhile_isPadded hSign (by decide) (t ++ rest)
      rw [List.append_assoc, unaryReader_of_sign hDrop,
        dropWhile_isBlank_append hAfter, map_apply, unaryReader_dropWhile,
        ih (by simp only [List.length_append] at hLength; omega) rfl]
      rfl

/-! ## Products and sums -/

theorem productReader_dropWhile (s : List Char) :
    productReader inner (s.dropWhile isBlank) = productReader inner s := by
  simp only [productReader, bind_apply, unaryReader_dropWhile]

theorem sound_product (h : Sound inner (Derives .sum)) :
    Sound (productReader inner) (Derives .product) := by
  intro s e rest hRead
  obtain ⟨a, mid, hFirst, hRead⟩ := bind_eq_some_iff.1 hRead
  obtain ⟨ops, mid', hMore, hRead⟩ := bind_eq_some_iff.1 hRead
  rw [ofOption_apply, Option.map_eq_some_iff] at hRead
  obtain ⟨e', hProduct, hEq⟩ := hRead
  cases hEq
  obtain ⟨p, rfl, hp⟩ := sound_unary h s a mid hFirst
  obtain ⟨q, rfl, hq⟩ := sound_chain (sound_unary h) mid ops rest hMore
  exact ⟨p ++ q, by simp, product_of_chain (.signed hp) hq hProduct⟩

theorem complete_product {depth : Nat}
    (h : CompleteWithin depth inner (Derives .sum) sumEnds) :
    CompleteWithin (depth + 2) (productReader inner) (Derives .product)
      productEnds := by
  intro p e rest hLength hp hRest
  obtain ⟨s, t, a, ops, rfl, ha, hChain, hProduct⟩ :=
    exists_chain_of_product hp
  rw [List.length_append] at hLength
  have hFollows : Follows operandEnds (t ++ rest) :=
    hChain.follows hRest (by decide) (by decide) (by decide)
  have hFirst := complete_unary h s a (t ++ rest) (by omega) ha hFollows
  have hMore := complete_chain (complete_unary h) unaryReader_dropWhile
    (by decide) (by decide) (by decide) (by decide) (by decide)
    (by omega) hChain hRest
  rw [List.append_assoc]
  refine bind_eq_some_iff.2 ⟨a, _, hFirst, ?_⟩
  refine bind_eq_some_iff.2 ⟨ops, _, hMore, ?_⟩
  rw [ofOption_apply, hProduct, Option.map_some]

theorem sound_sum (h : Sound inner (Derives .sum)) :
    Sound (sumReader inner) (Derives .sum) := by
  intro s e rest hRead
  obtain ⟨a, mid, hFirst, hRead⟩ := bind_eq_some_iff.1 hRead
  obtain ⟨ops, mid', hMore, hPure⟩ := bind_eq_some_iff.1 hRead
  rw [pure_apply] at hPure
  cases hPure
  obtain ⟨p, rfl, hp⟩ := sound_product h s a mid hFirst
  obtain ⟨q, rfl, hq⟩ := sound_chain (sound_product h) mid ops rest hMore
  exact ⟨p ++ q, by simp, sum_of_chain (.product hp) hq⟩

theorem complete_sum {depth : Nat}
    (h : CompleteWithin depth inner (Derives .sum) sumEnds) :
    CompleteWithin (depth + 2) (sumReader inner) (Derives .sum) sumEnds := by
  intro p e rest hLength hp hRest
  obtain ⟨s, t, a, ops, rfl, ha, hChain, rfl⟩ := exists_chain_of_sum hp
  rw [List.length_append] at hLength
  have hFollows : Follows productEnds (t ++ rest) :=
    hChain.follows hRest (by decide) (by decide) (by decide)
  have hFirst := complete_product h s a (t ++ rest) (by omega) ha hFollows
  have hMore := complete_chain (complete_product h) productReader_dropWhile
    (by decide) (by decide) (by decide) (by decide) (by decide)
    (by omega) hChain hRest
  rw [List.append_assoc]
  refine bind_eq_some_iff.2 ⟨a, _, hFirst, ?_⟩
  exact bind_eq_some_iff.2 ⟨ops, _, hMore, rfl⟩

/-! ## Expressions -/

theorem sound_readerWithin (depth : Nat) :
    Sound (readerWithin depth) (Derives .sum) := by
  induction depth with
  | zero =>
      intro s e rest hRead
      cases hRead
  | succ depth ih => exact sound_sum ih

theorem Derives.ne_nil {level : Level} {s : List Char} {e : Expr Dice}
    (h : Derives level s e) : s ≠ [] := by
  induction h with
  | dice hDice =>
      obtain ⟨p, q, rfl, -⟩ := hDice.exists_split
      simp
  | num hNum =>
      obtain ⟨c, t, rfl, -⟩ := hNum.exists_head
      simp
  | group => simp
  | padded _ hBlanks ih =>
      obtain ⟨before, after, -, -, rfl⟩ := hBlanks
      simp [ih]
  | neg _ _ ih => simp [ih]
  | signed _ ih => exact ih
  | product _ ih => exact ih
  | mul _ _ _ iha _ => simp [iha]
  | div _ _ _ _ iha _ => simp [iha]
  | add _ _ _ iha _ => simp [iha]
  | sub _ _ _ iha _ => simp [iha]

/-- Each level of parentheses takes two characters. -/
theorem complete_readerWithin (depth : Nat) :
    CompleteWithin (2 * depth) (readerWithin depth) (Derives .sum)
      sumEnds := by
  induction depth with
  | zero =>
      intro p e rest hLength hp _
      have hNil : p = [] := List.eq_nil_of_length_eq_zero (by omega)
      exact absurd hNil hp.ne_nil
  | succ depth ih => exact complete_sum ih

theorem sound_reader : Sound reader (Derives .sum) :=
  fun s e rest h => sound_readerWithin (s.length + 1) s e rest h

theorem complete_reader {p rest : List Char} {e : Expr Dice}
    (hp : Derives .sum p e) (hRest : Follows sumEnds rest) :
    reader (p ++ rest) = some (e, rest.dropWhile isBlank) := by
  refine complete_readerWithin ((p ++ rest).length + 1) p e rest ?_ hp hRest
  rw [List.length_append]
  omega

theorem readAll?_reader_eq_some_iff {s : List Char} {e : Expr Dice} :
    readAll? reader s = some e ↔ Derives .sum s e := by
  rw [readAll?_eq_some_iff]
  constructor
  · intro h
    obtain ⟨p, rfl, hp⟩ := sound_reader s e [] h
    rwa [List.append_nil]
  · intro h
    have hRead := complete_reader h (follows_nil sumEnds)
    rwa [List.append_nil] at hRead

theorem readLowercase?_eq_some_iff {text : String} {e : Expr Dice} :
    readLowercase? text = some e ↔ Derives .sum text.toList e :=
  readAll?_reader_eq_some_iff

theorem read?_eq_some_iff {text : String} {e : Expr Dice} :
    read? text = some e ↔ Derives .sum (lowercase text.toList) e :=
  readAll?_reader_eq_some_iff

end Expr

/-- The notation is read exactly as the grammar derives it: an expression with
blanks around its operators, signs and operands, and a set of dice without any.
A text derives one expression at most. -/
theorem notation_exact :
    (∀ (text : String) (e : Expr Dice),
      Expr.readLowercase? text = some e ↔ Expr.Derives .sum text.toList e) ∧
    (∀ (s : List Char) (e e' : Expr Dice),
      Expr.Derives .sum s e → Expr.Derives .sum s e' → e = e') ∧
    (∀ (text : String) (d : Dice),
      Dice.read? text = some d ↔ d.Derives (lowercase text.toList)) := by
  refine ⟨fun _ _ => Expr.readLowercase?_eq_some_iff, ?_,
    fun _ _ => Dice.read?_eq_some_iff⟩
  intro s e e' h h'
  have hRead := Expr.readAll?_reader_eq_some_iff.2 h
  rw [Expr.readAll?_reader_eq_some_iff.2 h'] at hRead
  cases hRead
  rfl

/-- A set of dice of which some are kept and a number in parentheses, with a blank in
front of the sign. -/
theorem notation_exact_sum :
    Expr.Derives .sum "4d6k3 +(1)".toList
        (.binary .add (.dice ⟨4, .numbered 6, [.keep .highest 3]⟩) (.group (.num 1))) ∧
      Expr.readLowercase? "4d6k3 +(1)" = some
        (.binary .add (.dice ⟨4, .numbered 6, [.keep .highest 3]⟩) (.group (.num 1))) := by
  have hCount : ∀ n : UInt16, CountDerives (Nat.toDigits 10 n.toNat) n :=
    fun n => ⟨some n.toNat, .piece (isNumeral_toDigits n.toNat), rfl⟩
  have hModifiers : Modifier.ListDerives ['k', '3'] [.keep .highest 3] :=
    .cons (t := []) (.keep (hCount 3)) nofun .nil
  have hSelect : (Modifier.keep .highest 3).SelectsWithin 4 := ⟨by decide, by decide⟩
  have hDice : Dice.Derives ['4', 'd', '6', 'k', '3']
      ⟨4, .numbered 6, [.keep .highest 3]⟩ :=
    .mk (s := ['4']) (t := ['6']) (hCount 4) (by decide)
      (.numbered (n := 6) (isNumeral_toDigits 6) (by decide)) hModifiers
      (List.forall_mem_singleton.2 hSelect)
  have hNum : Expr.Derives .atom ['1'] (.num 1) :=
    .num ⟨1, isNumeral_toDigits 1, by decide⟩
  have hInner : Expr.Derives .sum ['1'] (.num 1) :=
    .product (.signed (.padded hNum (isPadded_self _)))
  have hSum : Expr.Derives .sum "4d6k3 +(1)".toList
      (.binary .add (.dice ⟨4, .numbered 6, [.keep .highest 3]⟩)
        (.group (.num 1))) :=
    .add (.product (.signed (.padded (.dice hDice) (isPadded_self _))))
      ⟨[' '], [], by decide, by decide, rfl⟩
      (.signed (.padded (.group hInner) (isPadded_self _)))
  exact ⟨hSum, (notation_exact.1 _ _).2 hSum⟩

end DiceFormula
