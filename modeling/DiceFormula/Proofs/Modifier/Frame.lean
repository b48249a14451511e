import DiceFormula.Proofs.Modifier.Reroll
import Mathlib.Data.Prod.Basic
import Mathlib.Logic.Relation

/-!
# What a modifier touches

A modifier that succeeds takes no die from the table and does not change the order of
the dice: each die stays or is replaced by one image of it, and an explosion puts new
dice in between. Dice that have been dropped are not touched at all, and of the
others every kind of modifier may change some marks and no more. What is kept by one
modifier in this way is kept by any number of them, one after the other.

## Main results

* `Spread.trans` — the images of images.
* `Modifier.Replaces.spread` — what one step touches.
* `Modifier.spread_of_run_apply` — what a modifier touches.
* `Rolled.spread_of_turns` — what any number of modifiers touch.
* `Modifier.touches_only` — all of that together.
-/

namespace DiceFormula

open Chain Rolling

variable {σ : Type}

/-! ## Lists that grow in between -/

/-- The elements of the first list lie in the second one in the same order, each as an
image of what it was. Between them, new elements may have been inserted. -/
inductive Spread {α : Type} (Image : α → α → Prop) (New : α → Prop) :
    List α → List α → Prop
  | nil : Spread Image New [] []
  | image {a b : α} {l l' : List α} (h : Image a b) (hRest : Spread Image New l l') :
      Spread Image New (a :: l) (b :: l')
  | inserted {b : α} {l l' : List α} (h : New b) (hRest : Spread Image New l l') :
      Spread Image New l (b :: l')

namespace Spread

variable {α : Type} {Image Image' : α → α → Prop} {New New' : α → Prop}
  {l l' m n : List α}

theorem refl (h : ∀ a, Image a a) (l : List α) : Spread Image New l l := by
  induction l with
  | nil => exact .nil
  | cons a l ih => exact .image (h a) ih

/-- All elements may be new. -/
theorem of_new (h : ∀ b ∈ l, New b) : Spread Image New [] l := by
  induction l with
  | nil => exact .nil
  | cons b l ih =>
      obtain ⟨hFirst, hRest⟩ := List.forall_mem_cons.1 h
      exact .inserted hFirst (ih hRest)

theorem append (h : Spread Image New l l') (h' : Spread Image New m n) :
    Spread Image New (l ++ m) (l' ++ n) := by
  induction h with
  | nil => exact h'
  | image hImage _ ih => exact .image hImage ih
  | inserted hNew _ ih => exact .inserted hNew ih

theorem mono (hImage : ∀ a b, Image a b → Image' a b) (hNew : ∀ b, New b → New' b)
    (h : Spread Image New l m) : Spread Image' New' l m := by
  induction h with
  | nil => exact .nil
  | image h _ ih => exact .image (hImage _ _ h) ih
  | inserted h _ ih => exact .inserted (hNew _ h) ih

/-- The images of images are images, and what was new at first is still new. -/
theorem trans (hImage : ∀ a b c, Image a b → Image b c → Image a c)
    (hNew : ∀ b c, New b → Image b c → New c) (h : Spread Image New l m)
    (h' : Spread Image New m n) : Spread Image New l n := by
  induction h' generalizing l with
  | nil => exact h
  | image hLast _ ih =>
      cases h with
      | image hFirst hRest => exact .image (hImage _ _ _ hFirst hLast) (ih hRest)
      | inserted hFirst hRest => exact .inserted (hNew _ _ hFirst hLast) (ih hRest)
  | inserted hLast _ ih => exact .inserted hLast (ih h)

end Spread

/-- A walk spreads the dice of a set if its steps do so with each of them. -/
theorem Chain.Walked.spread {P : Die → List Value → Outcome → Prop}
    {Image : Die → Die → Prop} {New : Die → Prop} {rolls : List Die}
    {values : List Value} {outcome : Outcome}
    (hDie : ∀ die values outcome, P die values outcome →
      Spread Image New [die] outcome.rolls)
    (hSame : ∀ die, Image die die) (h : Walked P rolls values outcome) :
    Spread Image New rolls outcome.rolls := by
  induction h with
  | done => exact .nil
  | passed hStep _ ih => exact (hDie _ _ _ hStep).append ih
  | stopped hStep => exact (hDie _ _ _ hStep).append (.refl hSame _)

/-! ## One modifier -/

namespace Modifier

variable {m : Modifier} {die die' : Die}

/-- What a modifier may make of a die in the total: a selection may mark it as
dropped, a limit may change what it counts for, an explosion may mark it as exploded,
and a reroll may change its face and with it what it counts for. -/
def Touches (m : Modifier) (die die' : Die) : Prop :=
  match m with
  | keep _ _ | drop _ _ => die' = die ∨ die' = { die with droppedBy := some m }
  | atLeast _ | atMost _ =>
    die' = { die with counted := die'.counted, changes := die'.changes }
  | explode _ => die' = die ∨ die' = { die with explodedBy := some m }
  | reroll _ _ =>
    die' = { die with
      face := die'.face, counted := die'.counted, changes := die'.changes }

/-- What a modifier leaves of a die. -/
structure Leaves (m : Modifier) (die die' : Die) : Prop where
  dropped : die.isDropped = true → die' = die
  kept : die.isKept = true → m.Touches die die'

/-- Only an explosion adds dice. -/
def Adds (m : Modifier) (die : Die) : Prop :=
  die.addedBy = some m ∧ ∃ condition, m = explode condition

theorem Touches.refl (m : Modifier) (die : Die) : m.Touches die die := by
  cases m with
  | keep _ _ | drop _ _ | explode _ => exact .inl rfl
  | atLeast _ | atMost _ | reroll _ _ => rfl

theorem Leaves.refl (m : Modifier) (die : Die) : m.Leaves die die :=
  ⟨fun _ => rfl, fun _ => .refl m die⟩

theorem Leaves.of_isKept (hKept : die.isKept = true) (h : m.Touches die die') :
    m.Leaves die die' := by
  refine ⟨fun hDropped => ?_, fun _ => h⟩
  rw [Die.isDropped, Option.isSome_iff_ne_none] at hDropped
  exact absurd (Die.isKept_iff.1 hKept) hDropped

/-- What one step touches. -/
theorem Replaces.spread {sides : Sides} {values : List Value} {outcome : Outcome}
    (h : m.Replaces sides die values outcome) :
    Spread m.Leaves m.Adds [die] outcome.rolls := by
  cases h.effect with
  | untouched => exact .image (.refl m die) .nil
  | dropped hKind hKept =>
      refine .image (.of_isKept hKept ?_) .nil
      cases m with
      | keep _ _ | drop _ _ => exact .inr rfl
      | atLeast _ | atMost _ | explode _ | reroll _ _ => cases hKind
  | raised hKept | lowered hKept => exact .image (.of_isKept hKept rfl) .nil
  | exploded hKept _ _ hRolls =>
      rw [hRolls]
      refine .image (.of_isKept hKept (.inr rfl)) (.of_new ?_)
      rw [List.forall_mem_map]
      exact fun v _ => ⟨rfl, _, rfl⟩
  | rerolled hKept _ _ hRolls =>
      rw [hRolls, Reroll.foldl_change_eq]
      exact .image (.of_isKept hKept rfl) .nil

/-- What a modifier that succeeds touches. -/
theorem spread_of_run_apply {set set' : Rolled} {roller : Roller σ}
    {table last : Table σ}
    (hRun : m.apply set roller table = (.ok (set', none), last)) :
    Spread m.Leaves m.Adds set.rolls set'.rolls := by
  obtain ⟨_, -, -, hApplied⟩ := (m.ensures_apply set).of_run_eq_ok hRun
  obtain ⟨-, rolls, hWalked, rfl⟩ := applied_none_iff.1 hApplied
  exact hWalked.spread (fun _ _ _ => Replaces.spread) (.refl m)

theorem dice_eq_of_run_apply {set set' : Rolled} {failure : Option Dice.Error}
    {roller : Roller σ} {table last : Table σ}
    (hRun : m.apply set roller table = (.ok (set', failure), last)) :
    set'.dice = set.dice := by
  obtain ⟨_, -, -, hApplied⟩ := (m.ensures_apply set).of_run_eq_ok hRun
  exact hApplied.dice_eq

end Modifier

/-! ## Modifiers one after the other -/

/-- What any modifier leaves of a die: it stays among those thrown at first or by the
same modifier, and nothing happens to it once it is dropped. -/
structure Die.Lasts (die die' : Die) : Prop where
  addedBy : die'.addedBy = die.addedBy
  frozen : die.isDropped = true → die' = die

/-- The die comes from an explosion. -/
def Die.IsFollower (die : Die) : Prop :=
  ∃ condition, die.addedBy = some (.explode condition)

theorem Die.Lasts.refl (die : Die) : die.Lasts die := ⟨rfl, fun _ => rfl⟩

theorem Die.Lasts.trans {a b c : Die} (h : a.Lasts b) (h' : b.Lasts c) : a.Lasts c := by
  refine ⟨h'.addedBy.trans h.addedBy, fun hDropped => ?_⟩
  have hSame := h.frozen hDropped
  rw [← hSame] at hDropped
  rw [h'.frozen hDropped, hSame]

theorem Modifier.Leaves.lasts {m : Modifier} {die die' : Die} (h : m.Leaves die die') :
    die.Lasts die' := by
  refine ⟨?_, h.dropped⟩
  cases hMark : die.droppedBy with
  | some _ => rw [h.dropped (Option.isSome_iff_exists.2 ⟨_, hMark⟩)]
  | none =>
      have hTouched := h.kept (Die.isKept_iff.2 hMark)
      cases m with
      | keep _ _ | drop _ _ | explode _ =>
          obtain rfl | hMarked := hTouched
          · rfl
          · rw [hMarked]
      | atLeast _ | atMost _ | reroll _ _ =>
          rw [Modifier.Touches] at hTouched
          rw [hTouched]

namespace Rolled

/-- Some modifier makes the one set of the other, with some roller. -/
def TurnsInto (set set' : Rolled) : Prop :=
  ∃ (m : Modifier) (σ : Type) (roller : Roller σ) (table last : Table σ),
    m.apply set roller table = (.ok (set', none), last)

theorem TurnsInto.dice_eq {set set' : Rolled} (h : set.TurnsInto set') :
    set'.dice = set.dice := by
  obtain ⟨m, σ, roller, table, last, hRun⟩ := h
  exact Modifier.dice_eq_of_run_apply hRun

theorem TurnsInto.spread {set set' : Rolled} (h : set.TurnsInto set') :
    Spread Die.Lasts Die.IsFollower set.rolls set'.rolls := by
  obtain ⟨m, σ, roller, table, last, hRun⟩ := h
  refine (Modifier.spread_of_run_apply hRun).mono (fun _ _ => Modifier.Leaves.lasts) ?_
  rintro die ⟨hAdded, condition, rfl⟩
  exact ⟨condition, hAdded⟩

/-- What any number of modifiers touch. -/
theorem spread_of_turns {set set' : Rolled}
    (h : Relation.ReflTransGen TurnsInto set set') :
    set'.dice = set.dice ∧ Spread Die.Lasts Die.IsFollower set.rolls set'.rolls := by
  induction h with
  | refl => exact ⟨rfl, .refl .refl _⟩
  | tail _ hStep ih =>
      refine ⟨hStep.dice_eq.trans ih.1, ih.2.trans (fun _ _ _ => Die.Lasts.trans) ?_
        hStep.spread⟩
      rintro die die' ⟨condition, hAdded⟩ hLasts
      exact ⟨condition, hLasts.addedBy.trans hAdded⟩

/-- A list of modifiers that succeeds makes the sets of one another. -/
theorem turns_of_run_modify {set set' : Rolled} {ms : List Modifier}
    {roller : Roller σ} {table last : Table σ}
    (hRun : (set.modify ms).run roller table = (.ok (.ok set'), last)) :
    Relation.ReflTransGen TurnsInto set set' := by
  induction ms generalizing set table with
  | nil =>
      cases hRun
      exact .refl
  | cons m ms ih =>
      obtain ⟨next, middle, hFirst, hRest⟩ := run_modify_cons_eq_ok_iff.1 hRun
      exact .head ⟨m, σ, roller, table, middle, hFirst⟩ (ih hRest)

end Rolled

/-- What a modifier that succeeds touches, with any roller. The dice of the set keep
their order, new ones between them come from an explosion, dice that were dropped
before are as they were, and of the others each kind of modifier changes what
`Modifier.Touches` says and no more. So any number of modifiers, such as the list of a
roll, neither take a die away nor undo a drop, and leave a dropped die alone. -/
theorem Modifier.touches_only :
    (∀ (m : Modifier) (set set' : Rolled) (roller : Roller σ) (table last : Table σ),
      m.apply set roller table = (.ok (set', none), last) →
        set'.dice = set.dice ∧ Spread m.Leaves m.Adds set.rolls set'.rolls) ∧
    (∀ (ms : List Modifier) (set set' : Rolled) (roller : Roller σ)
        (table last : Table σ),
      (set.modify ms).run roller table = (.ok (.ok set'), last) →
        Relation.ReflTransGen Rolled.TurnsInto set set') ∧
    ∀ set set' : Rolled, Relation.ReflTransGen Rolled.TurnsInto set set' →
      set'.dice = set.dice ∧
        Spread Die.Lasts Die.IsFollower set.rolls set'.rolls :=
  ⟨fun _ _ _ _ _ _ hRun => ⟨dice_eq_of_run_apply hRun, spread_of_run_apply hRun⟩,
    fun _ _ _ _ _ _ => Rolled.turns_of_run_modify,
    fun _ _ => Rolled.spread_of_turns⟩

/-- Two sixes and a one, of which the second six has been dropped. -/
def twoSixes : Rolled :=
  ⟨⟨3, .numbered 6, []⟩, [.ofFace 6,
    { Die.ofFace 6 with droppedBy := some (.drop .highest 1) }, .ofFace 1]⟩

/-- The first six is followed by a six and a two, the one is thrown again, and no die
counts for more than five any more. To the six that has been dropped nothing happens. -/
theorem Modifier.touches_only_sixes :
    (∃ set' last,
      (explode none).apply twoSixes Roller.listed (Table.new [6, 2, 5]) =
          (.ok (set', none), last) ∧
        set'.rolls.map Die.text = ["6!", "6!", "2", "6d", "1"] ∧
        Spread (explode none).Leaves (explode none).Adds twoSixes.rolls set'.rolls) ∧
    ∃ set' last,
      (twoSixes.modify [explode none, reroll none false, atMost 5]).run Roller.listed
          (Table.new [6, 2, 5]) = (.ok (.ok set'), last) ∧
        set'.rolls.map Die.text = ["6![5]", "6![5]", "2", "6d", "5r"] ∧
        set'.dice = twoSixes.dice ∧
        Spread Die.Lasts Die.IsFollower twoSixes.rolls set'.rolls := by
  have hExplode : ((explode none).apply twoSixes Roller.listed
      (Table.new [6, 2, 5])).1 =
      .ok (⟨twoSixes.dice, [(Die.ofFace 6).explode (.explode none),
        Explosion.follower (.explode none) (· == 6) 6,
        Explosion.follower (.explode none) (· == 6) 2,
        { Die.ofFace 6 with droppedBy := some (.drop .highest 1) },
        .ofFace 1]⟩, none) := rfl
  have hModify : ((twoSixes.modify [explode none, reroll none false, atMost 5]).run
      Roller.listed (Table.new [6, 2, 5])).1 =
      .ok (.ok ⟨twoSixes.dice,
        [((Die.ofFace 6).explode (.explode none)).clamp (.atMost 5) 5,
        (Explosion.follower (.explode none) (· == 6) 6).clamp (.atMost 5) 5,
        Explosion.follower (.explode none) (· == 6) 2,
        { Die.ofFace 6 with droppedBy := some (.drop .highest 1) },
        (Die.ofFace 1).change (.reroll none false) 5]⟩) := rfl
  obtain ⟨hSingle, hList, hTurns⟩ := @Modifier.touches_only (List Value)
  refine ⟨?single, ?list⟩
  case single =>
    have hRun := Prod.fst_eq_iff.1 hExplode
    exact ⟨_, _, hRun, rfl, (hSingle _ _ _ _ _ _ hRun).2⟩
  case list =>
    have hRun := Prod.fst_eq_iff.1 hModify
    obtain ⟨hDice, hSpread⟩ := hTurns _ _ (hList _ _ _ _ _ _ hRun)
    exact ⟨_, _, hRun, rfl, hDice, hSpread⟩

end DiceFormula
