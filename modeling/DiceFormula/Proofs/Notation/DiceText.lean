import DiceFormula.Proofs.Notation.Dice
import DiceFormula.Proofs.Text.Lowercase
import DiceFormula.Proofs.Value

/-!
# The canonical notation of sets of dice

The text of a set of dice writes the count and the operands of selections even
where they may be left out, and has an `F` for fate dice. Apart from that letter
it is what the grammar derives the set from, provided that the set can be
written at all: there is no text for an empty set, say, or for a bare `r` in
front of a further reroll. `Dice.Writable` collects what is needed.

## Main results

* `Dice.Derives.writable` — the sets of dice that have a text are writable.
* `Dice.derives_text` — the text of a writable set denotes the set.
-/

namespace DiceFormula

open Text Text.Reader

/-! ## Writable sets -/

/-- The value that a modifier mentions, if it does. -/
def Modifier.bound? : Modifier → Option Value
  | keep _ _ => none
  | drop _ _ => none
  | atLeast bound => some bound
  | atMost bound => some bound
  | explode condition => condition.map Condition.bound
  | reroll condition _ => condition.map Condition.bound

/-- The second modifier can be written behind the first one: a bare `r` in
front of another reroll would be read as `rr`. -/
def Modifier.Apart (m m' : Modifier) : Prop :=
  m = .reroll none false → m'.isReroll = false

/-- The set of dice can be written. -/
structure Dice.Writable (d : Dice) : Prop where
  count_pos : 1 ≤ d.count.toNat
  sides_pos : ∀ n, d.sides = .numbered n → 1 ≤ n.toNat
  selects : ∀ m ∈ d.modifiers, m.SelectsWithin d.count
  bounds : ∀ m ∈ d.modifiers, ∀ v, m.bound? = some v → 0 ≤ v.toInt
  apart : d.modifiers.IsChain Modifier.Apart

/-- The first letter of a modifier. -/
def Modifier.initial : Modifier → Char
  | keep _ _ => 'k'
  | drop _ _ => 'd'
  | atLeast _ => 'm'
  | atMost _ => 'm'
  | explode _ => '!'
  | reroll _ _ => 'r'

theorem Modifier.initial_eq_r_iff {m : Modifier} :
    m.initial = 'r' ↔ m.isReroll = true := by
  cases m <;> simp [initial, isReroll]

theorem Modifier.Derives.head? {s : List Char} {m : Modifier}
    (h : m.Derives s) : s.head? = some m.initial := by
  cases h <;> rfl

theorem Modifier.Derives.bound_nonneg {s : List Char} {m : Modifier}
    (h : m.Derives s) : ∀ v, m.bound? = some v → 0 ≤ v.toInt := by
  have hValue : ∀ {t : List Char} {v : Value}, Value.Derives t v →
      0 ≤ v.toInt := by
    rintro t v ⟨n, -, hv⟩
    omega
  have hCondition : ∀ {t : List Char} {o : Option Condition},
      OrNothing Condition.Derives t o →
      ∀ v, o.map Condition.bound = some v → 0 ≤ v.toInt := by
    rintro t o ho v hv
    cases ho with
    | nothing => cases hv
    | piece hPiece =>
        cases hPiece with
        | mk _ hBound =>
            cases hv
            exact hValue hBound
  intro v hv
  cases h with
  | keepHighest | keepLowest | keep | dropHighest | dropLowest => cases hv
  | explode h | rerollOnce h | rerollAgain h => exact hCondition h v hv
  | atLeast h | atMost h =>
      cases hv
      exact hValue h

/-- The text of a bare reroll is the letter alone. -/
theorem Modifier.Derives.eq_r {s : List Char}
    (h : Modifier.Derives s (.reroll none false)) : s = ['r'] := by
  cases h with
  | rerollOnce hNone =>
      cases hNone
      rfl

theorem Modifier.ListDerives.head?_eq {s : List Char} {m : Modifier}
    {ms : List Modifier} (h : Modifier.ListDerives s (m :: ms)) :
    s.head? = some m.initial := by
  cases h with
  | @cons s t _ _ hFirst _ _ =>
      have hHead := hFirst.head?
      cases s with
      | nil => cases hHead
      | cons c s => exact hHead

theorem Modifier.ListDerives.apart {s : List Char} {ms : List Modifier}
    (h : Modifier.ListDerives s ms) : ms.IsChain Modifier.Apart := by
  induction h with
  | nil => exact .nil
  | @cons s t m ms hFirst hApart hMore ih =>
      cases ms with
      | nil => exact .singleton m
      | cons m' ms =>
          refine .cons_cons ?_ ih
          rintro rfl
          by_contra hReroll
          rw [Bool.not_eq_false, ← initial_eq_r_iff] at hReroll
          exact hApart hFirst.eq_r (by rw [hMore.head?_eq, hReroll])

theorem Modifier.ListDerives.bounds {s : List Char} {ms : List Modifier}
    (h : Modifier.ListDerives s ms) :
    ∀ m ∈ ms, ∀ v, m.bound? = some v → 0 ≤ v.toInt := by
  induction h with
  | nil => simp
  | cons hFirst _ _ ih =>
      intro m hm
      rcases List.mem_cons.1 hm with rfl | hm
      · exact hFirst.bound_nonneg
      · exact ih m hm

theorem Dice.Derives.writable {s : List Char} {d : Dice} (h : d.Derives s) :
    d.Writable := by
  cases h with
  | mk _ hPos hSides hModifiers hSelect =>
      refine ⟨hPos, ?_, hSelect, hModifiers.bounds, hModifiers.apart⟩
      rintro n rfl
      cases hSides with
      | numbered _ hn => exact hn

/-! ## Texts -/

theorem Value.derives_text {v : Value} (h : 0 ≤ v.toInt) :
    Value.Derives (Value.text v).toList v := by
  unfold Value.text
  cases hv : v.toInt with
  | ofNat n =>
      refine ⟨n, ?_, hv⟩
      rw [Nat.toList_repr]
      exact isNumeral_toDigits n
  | negSucc n => omega

theorem countDerives_repr (count : UInt16) :
    CountDerives count.toNat.repr.toList count := by
  refine ⟨some count.toNat, .piece ?_, rfl⟩
  rw [Nat.toList_repr]
  exact isNumeral_toDigits count.toNat

theorem Comparison.derives_symbol (c : Comparison) :
    c.Derives c.symbol.toList := by
  cases c with
  | eq => exact .unwritten
  | gt => exact .gt
  | ge => exact .ge
  | lt => exact .lt
  | le => exact .le

theorem Condition.derives_text {c : Condition} (h : 0 ≤ c.bound.toInt) :
    c.Derives c.text.toList := by
  rw [Condition.text, String.toList_append]
  exact .mk c.comparison.derives_symbol (Value.derives_text h)

theorem Modifier.derives_text {m : Modifier}
    (h : ∀ v, m.bound? = some v → 0 ≤ v.toInt) : m.Derives m.text.toList := by
  have hOption : ∀ o : Option Condition,
      (∀ v, o.map Condition.bound = some v → 0 ≤ v.toInt) →
      OrNothing Condition.Derives ((o.map Condition.text).getD "").toList o := by
    intro o ho
    cases o with
    | none => exact .nothing
    | some c => exact .piece (Condition.derives_text (ho c.bound rfl))
  cases m with
  | keep extreme n =>
      simp only [text, String.toList_append, List.append_assoc]
      cases extreme with
      | highest => exact .keepHighest (countDerives_repr n)
      | lowest => exact .keepLowest (countDerives_repr n)
  | drop extreme n =>
      simp only [text, String.toList_append, List.append_assoc]
      cases extreme with
      | highest => exact .dropHighest (countDerives_repr n)
      | lowest => exact .dropLowest (countDerives_repr n)
  | atLeast bound =>
      simp only [text, String.toList_append]
      exact .atLeast (Value.derives_text (h bound rfl))
  | atMost bound =>
      simp only [text, String.toList_append]
      exact .atMost (Value.derives_text (h bound rfl))
  | explode condition =>
      simp only [text, String.toList_append]
      exact .explode (hOption condition h)
  | reroll condition again =>
      simp only [text, String.toList_append]
      cases again with
      | false => exact .rerollOnce (hOption condition h)
      | true => exact .rerollAgain (hOption condition h)

theorem Modifier.eq_bare_of_text {m : Modifier} (h : m.text.toList = ['r'])
    (hDerives : m.Derives m.text.toList) : m = .reroll none false := by
  rw [h] at hDerives
  generalize hText : ['r'] = s at hDerives
  cases hDerives with
  | keepHighest | keepLowest | keep | dropHighest | dropLowest | explode
  | rerollAgain | atLeast | atMost => cases hText
  | rerollOnce hCondition =>
      cases hCondition with
      | nothing => rfl
      | piece hPiece =>
          cases hPiece with
          | mk _ hBound =>
              obtain ⟨c, t, rfl, -⟩ := hBound.exists_head
              simp at hText

theorem Modifier.listDerives_text {ms : List Modifier}
    (hBounds : ∀ m ∈ ms, ∀ v, m.bound? = some v → 0 ≤ v.toInt)
    (hApart : ms.IsChain Modifier.Apart) :
    Modifier.ListDerives (String.join (ms.map Modifier.text)).toList ms := by
  rw [String.toList_join]
  induction ms with
  | nil => exact .nil
  | cons m ms ih =>
      have hFirst := derives_text (hBounds m List.mem_cons_self)
      have hRest : ms.IsChain Apart := by
        cases hApart with
        | singleton => exact .nil
        | cons_cons _ hRest => exact hRest
      have hMore := ih (fun m' hm' => hBounds m' (List.mem_cons_of_mem m hm'))
        hRest
      refine .cons hFirst ?_ hMore
      intro hText
      cases ms with
      | nil => simp
      | cons m' ms =>
          have hBare := eq_bare_of_text hText hFirst
          have hNot : m'.isReroll = false :=
            (List.isChain_cons_cons.1 hApart).1 hBare
          intro hHead
          have hInitial : m'.initial = 'r' :=
            Option.some.inj (hMore.head?_eq.symm.trans hHead)
          rw [initial_eq_r_iff.1 hInitial] at hNot
          cases hNot

/-! ## Letters -/

/-- The characters, besides digits, in the texts of sets of dice. The `F` of
fate dice is left out, since it is not read as it is written. -/
def Dice.letters : List Char :=
  ['d', '%', 'k', 'h', 'l', 'm', 'i', 'n', 'a', 'x', '!', 'r', '=', '<', '>',
   '-']

/-- The character is a digit or one of the letters of the notation. -/
def IsNotation (c : Char) : Prop := c.isDigit = true ∨ c ∈ Dice.letters

instance (c : Char) : Decidable (IsNotation c) :=
  inferInstanceAs (Decidable (_ ∨ _))

theorem isNotation_repr {n : Nat} : ∀ c ∈ n.repr.toList, IsNotation c :=
  fun _ hc => .inl (isDigit_of_mem_repr hc)

theorem Value.isNotation_text {v : Value} :
    ∀ c ∈ (Value.text v).toList, IsNotation c := by
  intro c hc
  rcases mem_text hc with hDigit | rfl
  · exact .inl hDigit
  · exact .inr (by decide)

theorem Condition.isNotation_text {o : Option Condition} :
    ∀ c ∈ ((o.map Condition.text).getD "").toList, IsNotation c := by
  intro c hc
  cases o with
  | none => cases hc
  | some condition =>
      have hSymbol : ∀ c ∈ condition.comparison.symbol.toList,
          IsNotation c := by
        cases condition.comparison <;> decide
      rw [Option.map_some, Option.getD_some, text, String.toList_append,
        List.mem_append] at hc
      rcases hc with hc | hc
      · exact hSymbol c hc
      · exact Value.isNotation_text c hc

theorem Modifier.isNotation_text {m : Modifier} :
    ∀ c ∈ m.text.toList, IsNotation c := by
  have hLetter : ∀ extreme : Extreme, ∀ c ∈ extreme.letter.toList,
      IsNotation c := by
    intro extreme
    cases extreme <;> decide
  have hWord : ∀ word ∈ ["k", "d", "min", "max", "!", "r", "rr"],
      ∀ c ∈ word.toList, IsNotation c := by
    decide
  intro c hc
  cases m with
  | keep extreme n =>
      simp only [text, String.toList_append, List.mem_append] at hc
      rcases hc with (hc | hc) | hc
      · exact hWord "k" (by decide) c hc
      · exact hLetter extreme c hc
      · exact isNotation_repr c hc
  | drop extreme n =>
      simp only [text, String.toList_append, List.mem_append] at hc
      rcases hc with (hc | hc) | hc
      · exact hWord "d" (by decide) c hc
      · exact hLetter extreme c hc
      · exact isNotation_repr c hc
  | atLeast bound =>
      rw [text, String.toList_append, List.mem_append] at hc
      rcases hc with hc | hc
      · exact hWord "min" (by decide) c hc
      · exact Value.isNotation_text c hc
  | atMost bound =>
      rw [text, String.toList_append, List.mem_append] at hc
      rcases hc with hc | hc
      · exact hWord "max" (by decide) c hc
      · exact Value.isNotation_text c hc
  | explode condition =>
      rw [text, String.toList_append, List.mem_append] at hc
      rcases hc with hc | hc
      · exact hWord "!" (by decide) c hc
      · exact Condition.isNotation_text c hc
  | reroll condition again =>
      rw [text, String.toList_append, List.mem_append] at hc
      rcases hc with hc | hc
      · split at hc
        · exact hWord "rr" (by decide) c hc
        · exact hWord "r" (by decide) c hc
      · exact Condition.isNotation_text c hc

theorem Sides.isNotation_text {sides : Sides} :
    ∀ c ∈ sides.text.toList, IsNotation c ∨ c = 'F' := by
  cases sides with
  | numbered n => exact fun c hc => .inl (isNotation_repr c hc)
  | fate => decide
  | percentile => decide

theorem Dice.isNotation_text {d : Dice} :
    ∀ c ∈ d.text.toList, IsNotation c ∨ c = 'F' := by
  intro c hc
  simp only [text, String.toList_append, String.toList_join, List.mem_append,
    List.mem_flatMap, List.mem_map] at hc
  rcases hc with ((hc | hc) | hc) | ⟨_, ⟨m, -, rfl⟩, hc⟩
  · exact .inl (isNotation_repr c hc)
  · rw [List.mem_singleton.1 hc]
    decide
  · exact Sides.isNotation_text c hc
  · exact .inl (Modifier.isNotation_text c hc)

/-! ## Lowercase texts -/

theorem IsNotation.isLowercaseChar {c : Char} (h : IsNotation c) :
    IsLowercaseChar c := by
  rcases h with hDigit | hLetter
  · exact isLowercaseChar_of_isDigit hDigit
  · have hLetters : ∀ d ∈ Dice.letters,
        d.toNat < 0xC0 ∧ ¬ (65 ≤ d.toNat ∧ d.toNat ≤ 90) := by
      decide
    obtain ⟨hLow, hSmall⟩ := hLetters c hLetter
    exact isLowercaseChar_of_lt hLow hSmall

theorem map_lowercaseChar_eq_self {s : List Char}
    (h : ∀ c ∈ s, IsLowercaseChar c) : s.map lowercaseChar = s :=
  (List.map_congr_left fun c hc => (h c hc).2.2).trans (List.map_id' s)

theorem map_lowercaseChar_of_isNotation {s : List Char}
    (h : ∀ c ∈ s, IsNotation c) : s.map lowercaseChar = s :=
  map_lowercaseChar_eq_self fun c hc => (h c hc).isLowercaseChar

/-- No letter of a set of dice has a lowercase form that depends on its
place. -/
theorem Dice.lowercase_text (d : Dice) :
    lowercase d.text.toList = d.text.toList.map lowercaseChar := by
  refine lowercase_eq_map fun c hc => ?_
  rcases isNotation_text c hc with hNotation | rfl
  · obtain ⟨hSigma, hDotted, -⟩ := hNotation.isLowercaseChar
    exact ⟨hSigma, hDotted⟩
  · decide

theorem Sides.derives_text {sides : Sides}
    (h : ∀ n, sides = .numbered n → 1 ≤ n.toNat) :
    sides.Derives (sides.text.toList.map lowercaseChar) := by
  cases sides with
  | numbered n =>
      rw [text, map_lowercaseChar_of_isNotation isNotation_repr, Nat.toList_repr]
      exact .numbered (isNumeral_toDigits n.toNat) (h n rfl)
  | fate =>
      have hLetter : lowercaseChar 'F' = 'f' := by decide
      rw [text, show "F".toList = ['F'] from rfl, List.map_singleton, hLetter]
      exact .fate
  | percentile =>
      have hSymbol : ∀ c ∈ percentile.text.toList, IsNotation c := by decide
      rw [map_lowercaseChar_of_isNotation hSymbol]
      exact .percentile

/-- The text of a writable set denotes the set. -/
theorem Dice.derives_text {d : Dice} (h : d.Writable) :
    d.Derives (d.text.toList.map lowercaseChar) := by
  have hCount := map_lowercaseChar_of_isNotation
    (isNotation_repr (n := d.count.toNat))
  have hModifiers : ∀ c ∈ (String.join (d.modifiers.map Modifier.text)).toList,
      IsNotation c := by
    intro c hc
    rw [String.toList_join, List.mem_flatMap] at hc
    obtain ⟨_, hm, hc⟩ := hc
    obtain ⟨m, -, rfl⟩ := List.mem_map.1 hm
    exact Modifier.isNotation_text c hc
  have hLetter : ∀ c ∈ "d".toList, IsNotation c := by decide
  rw [text, String.toList_append, String.toList_append, String.toList_append,
    List.map_append, List.map_append, List.map_append, hCount,
    map_lowercaseChar_of_isNotation hLetter, map_lowercaseChar_of_isNotation hModifiers]
  simp only [List.append_assoc]
  have hDerives := Dice.Derives.mk (countDerives_repr d.count) h.count_pos
    (Sides.derives_text h.sides_pos)
    (Modifier.listDerives_text h.bounds h.apart) h.selects
  exact hDerives

end DiceFormula
