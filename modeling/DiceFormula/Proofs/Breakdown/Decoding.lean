import DiceFormula.Proofs.Breakdown.DieText
import DiceFormula.Proofs.Expr.Alike
import DiceFormula.Proofs.Expr.Layout
import DiceFormula.Proofs.Formula.Roll
import DiceFormula.Proofs.Notation.RoundTrip

/-!
# Reading a breakdown

Two rolls of one formula differ in what the dice show, and nowhere else. Their
breakdowns are laid out alike, so wherever the breakdown of the one has the
listing of a set, that of the other has the listing of the same set; and since
a listing ends where a parenthesis or an operator follows, equal breakdowns
are made of equal listings. What counts of a die can be told from its text,
and from what counts of the dice follows the total.

## Main results

* `alike_of_text_append` — equal breakdowns of trees of the same shape list the
  same dice.
* `toOption_calculate_eq` — the total depends on the totals of the sets only.
* `rolls_determine_total` — rolls of one formula with equal breakdowns have
  equal totals.
-/

namespace DiceFormula

open Formula

/-! ## Layouts -/

/-- A text in parentheses ends with them, and one without is as it is. -/
theorem parenthesize_append_inj {P : Prop} {wrap : Bool} {x y : String}
    {r s : List Char}
    (hInner : ∀ {r s : List Char}, (∀ c ∈ r.head?, c ∈ listingEnds) →
      (∀ c ∈ s.head?, c ∈ listingEnds) → x.toList ++ r = y.toList ++ s →
      P ∧ r = s)
    (hr : ∀ c ∈ r.head?, c ∈ listingEnds) (hs : ∀ c ∈ s.head?, c ∈ listingEnds)
    (h : (parenthesize wrap x).toList ++ r =
      (parenthesize wrap y).toList ++ s) : P ∧ r = s := by
  cases wrap with
  | false => exact hInner hr hs h
  | true =>
      have hText : ∀ z : String, ∀ t : List Char,
          (parenthesize true z).toList ++ t = '(' :: (z.toList ++ ')' :: t) := by
        intro z t
        simp [parenthesize, String.toList_append]
      have hEnd : ∀ t : List Char, ∀ c ∈ (')' :: t).head?, c ∈ listingEnds := by
        intro t c hc
        cases hc
        decide
      rw [hText, hText] at h
      obtain ⟨hP, hRest⟩ := hInner (hEnd r) (hEnd s) (List.cons.inj h).2
      exact ⟨hP, (List.cons.inj hRest).2⟩

/-- Breakdowns of trees of the same shape that are equal up to what follows
list the same dice, and are followed by the same. -/
theorem alike_of_text_append {e e' : Evaluated}
    (hShape : Expr.Alike (fun _ _ => True) e e') {r s : List Char}
    (hr : ∀ c ∈ r.head?, c ∈ listingEnds) (hs : ∀ c ∈ s.head?, c ∈ listingEnds)
    (h : (e.text (Rolled.describe none)).toList ++ r =
      (e'.text (Rolled.describe none)).toList ++ s) :
    Expr.Alike Rolled.SameTexts e e' ∧ r = s := by
  induction hShape generalizing r s with
  | num n => exact ⟨.num n, List.append_cancel_left h⟩
  | dice _ =>
      obtain ⟨hTexts, hRest⟩ := Rolled.describe_append_inj hr hs h
      exact ⟨.dice hTexts, hRest⟩
  | group _ ih =>
      obtain ⟨hAlike, hRest⟩ := parenthesize_append_inj ih hr hs h
      exact ⟨.group hAlike, hRest⟩
  | neg hShape ih =>
      simp only [Expr.text, String.toList_append, List.append_assoc,
        hShape.kind_eq] at h
      obtain ⟨hAlike, hRest⟩ :=
        parenthesize_append_inj ih hr hs (List.append_cancel_left h)
      exact ⟨.neg hAlike, hRest⟩
  | binary op hA hB iha ihb =>
      simp only [Expr.text, String.toList_append, List.append_assoc,
        hA.kind_eq, hB.kind_eq] at h
      have hBlank : ∀ t : List Char, ∀ c ∈ (" ".toList ++ t).head?,
          c ∈ listingEnds := by
        intro t c hc
        cases hc
        decide
      obtain ⟨hAlikeA, hMore⟩ :=
        parenthesize_append_inj iha (hBlank _) (hBlank _) h
      have hOperand := List.append_cancel_left (List.append_cancel_left
        (List.append_cancel_left hMore))
      obtain ⟨hAlikeB, hRest⟩ := parenthesize_append_inj ihb hr hs hOperand
      exact ⟨.binary op hAlikeA hAlikeB, hRest⟩

/-! ## Totals -/

namespace Evaluated

theorem toOption_calculate_dice (rolled : Rolled) :
    (calculate (.dice rolled)).toOption = rolled.total.toOption := by
  rw [calculate]
  cases rolled.total <;> rfl

theorem toOption_calculate_neg (e : Evaluated) :
    (calculate (.neg e)).toOption =
      (calculate e).toOption.bind fun v => Value.narrow? (-v.toInt) := by
  rw [calculate]
  cases calculate e with
  | error cause => rfl
  | ok v =>
      simp only [bind, Except.bind, Except.toOption, Option.bind]
      cases Value.narrow? (-v.toInt) <;> rfl

theorem toOption_calculate_binary (op : Op) (a b : Evaluated) :
    (calculate (.binary op a b)).toOption =
      (calculate a).toOption.bind fun v =>
        (calculate b).toOption.bind fun w => op.apply? v w := by
  rw [calculate]
  cases calculate a with
  | error cause => rfl
  | ok v =>
      cases calculate b with
      | error cause => rfl
      | ok w =>
          simp only [bind, Except.bind, Except.toOption, Option.bind]
          cases op.apply? v w <;> rfl

/-- The total depends on the totals of the sets only. -/
theorem toOption_calculate_eq {e e' : Evaluated}
    (h : Expr.Alike (fun a b => a.total = b.total) e e') :
    (calculate e).toOption = (calculate e').toOption := by
  induction h with
  | num n => rfl
  | dice h => rw [toOption_calculate_dice, toOption_calculate_dice, h]
  | group _ ih => exact ih
  | neg _ ih => rw [toOption_calculate_neg, toOption_calculate_neg, ih]
  | binary op _ _ iha ihb =>
      rw [toOption_calculate_binary, toOption_calculate_binary, iha, ihb]

end Evaluated

/-! ## Rolls -/

/-- If a formula is rolled twice, with any rollers, and the breakdowns are the
same line, then they are cut up in the same way and the totals are equal. -/
theorem rolls_determine_total {σ τ : Type} {text : String}
    {roller : Roller σ} {roller' : Roller τ} {table last : Table σ}
    {table' last' : Table τ} {outcome outcome' : Outcome}
    (h : (roll text).run roller table = (.ok (.ok outcome), last))
    (h' : (roll text).run roller' table' = (.ok (.ok outcome'), last'))
    (hRolls : outcome.rolls = outcome'.rolls) :
    outcome.groups = outcome'.groups ∧ outcome.total = outcome'.total := by
  obtain ⟨formula, e, before, after, hRead, hRun, hTotal, hGroups, -⟩ :=
    exists_evaluated_of_roll h
  obtain ⟨formula', e', before', after', hRead', hRun', hTotal', hGroups', -⟩ :=
    exists_evaluated_of_roll h'
  rw [hRead] at hRead'
  cases hRead'
  have hShape : Expr.Alike (fun _ _ => True) e e' :=
    ((Expr.Alike.of_evaluate hRun).span (Expr.Alike.of_evaluate hRun')).mono
      fun _ _ _ => trivial
  have hText : e.text (Rolled.describe none) =
      e'.text (Rolled.describe none) := by
    rw [Outcome.rolls, Outcome.rolls, hGroups, hGroups', Evaluated.groups,
      Evaluated.groups, Expr.intercalate_groups, Expr.intercalate_groups] at hRolls
    exact hRolls
  obtain ⟨hAlike, -⟩ := alike_of_text_append (r := []) (s := []) hShape nofun
    nofun (by rw [hText])
  constructor
  · rw [hGroups, hGroups']
    exact (hAlike.mono fun a b hTexts => hTexts.describe_eq).groups_eq
  · have hOption := Evaluated.toOption_calculate_eq
      (hAlike.mono fun a b hTexts => hTexts.total_eq)
    rw [hTotal, hTotal'] at hOption
    exact Option.some.inj hOption

/-- Three dice, of which sixes explode, ones are thrown again and none counts for less
than three, less two others. -/
theorem read_difference :
    read "3D6!rmin3 - 2d4" =
      .ok ⟨"3d6!rmin3 - 2d4", .binary .sub
        (.dice ⟨3, .numbered 6, [.explode none, .reroll none false, .atLeast 3]⟩)
        (.dice ⟨2, .numbered 4, []⟩)⟩ := by
  decide +kernel

/-- A six, a one and a two are thrown, a four behind the six and a five for the one.
What comes after the last two faces does not matter. -/
theorem run_difference (rest : List Value) :
    ((roll "3D6!rmin3 - 2d4").run Roller.listed
        (Table.new (6 :: 1 :: 2 :: 4 :: 5 :: 3 :: 2 :: rest))).1 =
      .ok (.ok ⟨13, ["6!, 4, 5r, 2[3]", "-", "3, 2"], "3d6!rmin3 - 2d4"⟩) := by
  rw [run_roll_of_ok read_difference]
  rfl

/-- Two rolls that have the same faces at first and would go on with others. -/
theorem rolls_determine_total_difference :
    ∃ outcome outcome' : Outcome,
      ((roll "3D6!rmin3 - 2d4").run Roller.listed
        (Table.new [6, 1, 2, 4, 5, 3, 2])).1 = .ok (.ok outcome) ∧
      ((roll "3D6!rmin3 - 2d4").run Roller.listed
        (Table.new [6, 1, 2, 4, 5, 3, 2, 1])).1 = .ok (.ok outcome') ∧
      outcome.rolls = "6!, 4, 5r, 2[3] - 3, 2" ∧ outcome.rolls = outcome'.rolls ∧
      outcome.groups = outcome'.groups ∧ outcome.total = outcome'.total := by
  have hRun := run_difference []
  have hLonger := run_difference [1]
  exact ⟨_, _, hRun, hLonger, rfl, rfl,
    rolls_determine_total (Prod.ext hRun rfl) (Prod.ext hLonger rfl) rfl⟩

end DiceFormula
