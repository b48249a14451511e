import DiceFormula.Proofs.Dice.History
import DiceFormula.Proofs.Dice.Lockstep
import DiceFormula.Proofs.Dice.Provenance
import DiceFormula.Proofs.Rolled
import Mathlib.Algebra.Order.BigOperators.Group.List
import Mathlib.Algebra.Order.Ring.Int

/-!
# The range of faces and totals

If the roller gives values inside the intervals it is asked for, so are the values
that are drawn for a set; and every face on the table is one of them, whatever has
been thrown again, has exploded or has been limited since. What a die counts for
can lie outside that range only if a limit has put it there, and then it is that
limit.

From the range of single dice follows that of their total. A set is summed up in
values, so its total is refused where a sum on the way does not fit. Without
negative values the sums grow, and it is enough to look at the last one.

## Main results

* `Dice.isInside_of_run_roll` — the draws of a roll lie inside their intervals.
* `Die.Faithful.counted_cases` — a die counts for its face or for a limit.
* `Rolled.partialSum_bounds` — sums of shares from a range.
* `Dice.roll_in_range` — the range of the faces, the values and the total of a set
  that has been rolled.
-/

namespace DiceFormula

open Rolling

variable {σ : Type}

/-! ## Draws inside their intervals -/

/-- The value lies in the interval it was drawn from. -/
def Draw.IsInside (draw : Draw) : Prop :=
  draw.lo ≤ draw.value ∧ draw.value ≤ draw.hi

/-- What the roller gives of an interval that has values is one of them. It need
not give anything. -/
def Roller.StaysInside (roller : Roller σ) : Prop :=
  ∀ state lo hi v next, lo ≤ hi → roller.draw state lo hi = .ok (v, next) →
    lo ≤ v ∧ v ≤ hi

namespace Lockstep

/-- A run beside itself, which has drawn values inside their intervals only since
it began on the table. -/
def inside (roller : Roller σ) (table : Table σ) : Lockstep σ σ where
  left := roller
  right := roller
  Related a b := a = b ∧ ∃ drawn : List Draw,
    a.draws = table.draws ++ drawn ∧ ∀ draw ∈ drawn, draw.IsInside

/-- With a roller that stays inside, draws from intervals that have values lie
inside. -/
theorem inside_keeps {roller : Roller σ} (h : roller.StaysInside)
    (table : Table σ) : (inside roller table).Keeps fun lo hi => lo ≤ hi where
  draw lo hi hRange := by
    rintro a _ ⟨rfl, drawn, hDrawn, hInside⟩
    refine ⟨rfl, rfl, ?_⟩
    show ∃ drawn : List Draw,
      (Rolling.draw lo hi roller a).2.draws = table.draws ++ drawn ∧
        ∀ draw ∈ drawn, draw.IsInside
    cases hDraw : roller.draw a.state lo hi with
    | error halt =>
        simp only [Rolling.draw, hDraw]
        exact ⟨drawn, hDrawn, hInside⟩
    | ok answer =>
        obtain ⟨v, next⟩ := answer
        have hValue := h a.state lo hi v next hRange hDraw
        simp only [Rolling.draw, hDraw]
        refine ⟨drawn ++ [⟨lo, hi, v⟩], ?_, ?_⟩
        · rw [hDrawn]
          exact Array.ext' (by simp)
        · exact List.forall_mem_append.2
            ⟨hInside, List.forall_mem_singleton.2 hValue⟩
  note record := by
    rintro a _ ⟨rfl, hDrawn⟩
    exact ⟨rfl, rfl, hDrawn⟩

end Lockstep

/-- The draws of a roll lie inside their intervals. -/
theorem Dice.isInside_of_run_roll {dice : Dice} {modify : Bool}
    {roller : Roller σ} {table last : Table σ}
    {result : Except Halt (Except Dice.Error Rolled)} {drawn : List Draw}
    (hFaces : dice.sides.minFace ≤ dice.sides.maxFace)
    (hRoller : roller.StaysInside)
    (h : (dice.roll modify).run roller table = (result, last))
    (hDrawn : last.draws = table.draws ++ drawn) :
    ∀ draw ∈ drawn, draw.IsInside := by
  have hAgree := agree_roll (Lockstep.inside_keeps hRoller table) hFaces modify
  obtain ⟨-, -, drawn', hDraws, hInside⟩ :=
    hAgree table table ⟨rfl, [], by simp, nofun⟩
  have hLast : last.draws = table.draws ++ drawn' := by
    rw [← hDraws]
    exact congrArg (fun run => run.2.draws) h.symm
  rw [hDrawn] at hLast
  have hSame := congrArg Array.toList hLast
  rw [Array.toList_appendList, Array.toList_appendList] at hSame
  rw [List.append_cancel_left hSame]
  exact hInside

/-! ## Single dice -/

namespace Die

variable {sides : Sides} {first : Value} {die : Die}

/-- The face a die shows is one that it has shown. -/
theorem Faithful.face_mem (h : die.Faithful sides first) :
    die.face ∈ die.facesShown := by
  rw [h.face, Change.shown, facesShown, h.firstFace_eq]
  exact List.getLastD_mem_cons

/-- A die counts for its face, or for a limit that it has been set to. -/
theorem Faithful.counted_cases (h : die.Faithful sides first) :
    die.counted = die.face ∨ ∃ change ∈ die.changes,
      change.cause = .atLeast die.counted ∨ change.cause = .atMost die.counted := by
  rcases List.eq_nil_or_concat die.changes with hChanges | ⟨log, last, hChanges⟩
  · left
    rw [h.counted, h.face, hChanges]
    rfl
  · -- The last change has made the value what it is.
    rw [List.concat_eq_append] at hChanges
    have hMem : last ∈ die.changes := by
      rw [hChanges]
      exact List.mem_concat_self
    have hCounted : die.counted = last.after := by
      rw [h.counted, hChanges, Change.worth_concat]
    have hNext := h.continues log last [] hChanges
    unfold Change.Continues at hNext
    cases hCause : last.cause with
    | reroll condition recurse =>
        left
        have hReroll : last.cause.isReroll = true := by
          rw [hCause]
          rfl
        rw [hCounted, h.face, hChanges, Change.shown_concat_reroll hReroll]
    | atLeast bound =>
        rw [hCause] at hNext
        refine .inr ⟨last, hMem, .inl ?_⟩
        rw [hCause, hCounted, hNext.2.2]
    | atMost bound =>
        rw [hCause] at hNext
        refine .inr ⟨last, hMem, .inr ?_⟩
        rw [hCause, hCounted, hNext.2.2]
    | keep | drop | explode =>
        rw [hCause] at hNext
        cases hNext

end Die

/-- The faces of a die that has any. -/
theorem Sides.face_bounds {sides : Sides} (h : sides ≠ .numbered 0) :
    sides.minFace ≤ sides.maxFace ∧ 0 ≤ sides.maxFace.toInt ∧
      -sides.maxFace.toInt ≤ sides.minFace.toInt := by
  cases sides with
  | numbered n =>
      obtain ⟨hMin, hMax⟩ := numbered_bounds n
      have hPos : n.toNat ≠ 0 := fun hZero =>
        h (congrArg numbered (UInt16.toNat_inj.1 hZero))
      rw [Int32.le_iff_toInt_le, hMax, hMin]
      omega
  | fate => decide
  | percentile => decide

theorem Sides.minFace_of_ne_fate {sides : Sides} (h : sides ≠ .fate) :
    sides.minFace = 1 := by
  cases sides with
  | numbered n => rfl
  | fate => exact absurd rfl h
  | percentile => rfl

/-! ## Totals -/

namespace Rolled

variable {rolled : Rolled} {lo hi : Int}

theorem length_shares (rolled : Rolled) :
    rolled.shares.length = (rolled.rolls.filter Die.isKept).length := by
  rw [shares_eq, countedValues, List.length_map, List.length_map]

theorem forall_mem_shares {P : Int → Prop}
    (h : ∀ die ∈ rolled.rolls, P die.counted.toInt) : ∀ n ∈ rolled.shares, P n :=
  List.forall_mem_map.2 fun die hDie => h die (List.mem_of_mem_filter hDie)

/-- There is a total if every sum on the way to it is a value. -/
theorem exists_total_eq_ok_iff :
    (∃ v, rolled.total = .ok v) ↔ ∀ k, Value.Fits (rolled.partialSum k) := by
  simp only [total_eq_ok_iff]
  constructor
  · rintro ⟨v, hFits, -⟩
    exact hFits
  · intro hFits
    have hTotal := fits_exactTotal hFits
    exact ⟨Int32.ofInt rolled.exactTotal, hFits,
      Int32.toInt_ofInt_of_le hTotal.1 hTotal.2⟩

/-- The sum of some of the shares, each of which lies between `lo` and `hi`. -/
theorem partialSum_bounds (h : ∀ n ∈ rolled.shares, lo ≤ n ∧ n ≤ hi) (k : Nat) :
    (min k rolled.shares.length : Nat) * lo ≤ rolled.partialSum k ∧
      rolled.partialSum k ≤ (min k rolled.shares.length : Nat) * hi := by
  have hEach : ∀ n ∈ rolled.shares.take k, lo ≤ n ∧ n ≤ hi :=
    fun n hn => h n (List.mem_of_mem_take hn)
  have hLower := List.card_nsmul_le_sum _ lo fun n hn => (hEach n hn).1
  have hUpper := List.sum_le_card_nsmul _ hi fun n hn => (hEach n hn).2
  rw [List.length_take, nsmul_eq_mul] at hLower hUpper
  exact ⟨hLower, hUpper⟩

/-- The total of shares between `lo` and `hi`. -/
theorem total_bounds {total : Value} (h : ∀ n ∈ rolled.shares, lo ≤ n ∧ n ≤ hi)
    (hTotal : rolled.total = .ok total) :
    rolled.shares.length * lo ≤ total.toInt ∧
      total.toInt ≤ rolled.shares.length * hi := by
  have hSum := partialSum_bounds h rolled.shares.length
  rw [Nat.min_self, partialSum_length] at hSum
  rw [(total_eq_ok_iff.1 hTotal).2]
  exact hSum

/-- There is a total if even the greatest shares would have one. -/
theorem exists_total_of_le (h : ∀ n ∈ rolled.shares, lo ≤ n ∧ n ≤ hi)
    (hHigh : 0 ≤ hi) (hLow : -hi ≤ lo)
    (hFits : rolled.shares.length * hi ≤ 0x7FFFFFFF) :
    ∃ v, rolled.total = .ok v := by
  refine exists_total_eq_ok_iff.2 fun k => ?_
  obtain ⟨hLower, hUpper⟩ := partialSum_bounds h k
  have hCount : ((min k rolled.shares.length : Nat) : Int) ≤ rolled.shares.length :=
    Int.ofNat_le.2 (Nat.min_le_right _ _)
  have hMore := Int.mul_le_mul_of_nonneg_right hCount hHigh
  have hLess := Int.mul_le_mul_of_nonneg_left hLow
    (Int.natCast_nonneg (min k rolled.shares.length))
  rw [Int.mul_neg] at hLess
  constructor
  · omega
  · omega

/-- Without negative values the sums grow, and the last of them decides. -/
theorem exists_total_eq_error_iff (h : ∀ n ∈ rolled.shares, 0 ≤ n) :
    (∃ err, rolled.total = .error err) ↔ 0x7FFFFFFF < rolled.exactTotal := by
  have hPartial : ∀ k, 0 ≤ rolled.partialSum k ∧
      rolled.partialSum k ≤ rolled.exactTotal := by
    intro k
    constructor
    · exact List.sum_nonneg fun n hn => h n (List.mem_of_mem_take hn)
    · exact (List.take_sublist k _).sum_le_sum h
  have hOk : (∃ v, rolled.total = .ok v) ↔ rolled.exactTotal ≤ 0x7FFFFFFF := by
    rw [exists_total_eq_ok_iff]
    constructor
    · intro hFits
      have hBelow := (fits_exactTotal hFits).2
      omega
    · intro hLast k
      have hSum := hPartial k
      constructor
      · omega
      · omega
  rw [← Int.not_le, ← hOk]
  cases rolled.total with
  | ok v => exact iff_of_false nofun fun hNone => hNone ⟨v, rfl⟩
  | error err => exact iff_of_true ⟨err, rfl⟩ nofun

end Rolled

/-! ## Rolls -/

namespace Dice

variable {dice : Dice} {roller : Roller σ} {table last : Table σ} {set : Rolled}

/-- All faces that the dice of a set have shown are faces of such dice. -/
theorem facesShown_of_run_roll (hFaces : dice.sides.minFace ≤ dice.sides.maxFace)
    (hRoller : roller.StaysInside)
    (h : (dice.roll true).run roller table = (.ok (.ok set), last)) :
    ∀ die ∈ set.rolls, ∀ v ∈ die.facesShown,
      dice.sides.minFace ≤ v ∧ v ≤ dice.sides.maxFace := by
  obtain ⟨drawn, hDraws, hAsks, first, more, hValues, -, hModified⟩ :=
    (dice.ensures_roll true).of_run_eq_ok h
  have hInside := isInside_of_run_roll hFaces hRoller h hDraws
  have hShown := hModified.accounted.shown
  rw [Rolled.facesShown_ofFaces, ← hValues] at hShown
  intro die hDie v hv
  have hMem := hShown.mem_iff.1 (List.mem_flatMap.2 ⟨die, hDie, hv⟩)
  obtain ⟨draw, hDraw, rfl⟩ := List.mem_map.1 hMem
  obtain ⟨hLo, hHi⟩ := hAsks draw hDraw
  rw [← hLo, ← hHi]
  exact hInside draw hDraw

/-- What a die counts for is its face or a limit of the set. -/
theorem counted_of_run_roll
    (h : (dice.roll true).run roller table = (.ok (.ok set), last)) :
    ∀ die ∈ set.rolls, die.counted = die.face ∨
      .atLeast die.counted ∈ dice.modifiers ∨
        .atMost die.counted ∈ dice.modifiers := by
  obtain ⟨_, -, -, faces, _, -, -, hModified⟩ :=
    (dice.ensures_roll true).of_run_eq_ok h
  have hMarked := hModified.forall_mem
    (fun m hMem _ _ _ hDie => hDie.markedBy hMem)
    (Rolled.markedBy_ofFaces dice faces dice.modifiers) set rfl
  intro die hDie
  obtain ⟨first, hFaithful⟩ := (Rolled.Made.rolled h).faithful die hDie
  refine hFaithful.counted_cases.imp_right ?_
  rintro ⟨change, hChange, hCause⟩
  have hMem := ((hMarked die hDie).changed change hChange).1
  rcases hCause with hCause | hCause
  · rw [hCause] at hMem
    exact .inl hMem
  · rw [hCause] at hMem
    exact .inr hMem

/-- All dice of a set without modifiers are in the total. -/
theorem length_kept_of_plain (hPlain : dice.modifiers = [])
    (h : (dice.roll true).run roller table = (.ok (.ok set), last)) :
    (set.rolls.filter Die.isKept).length = dice.count.toNat := by
  obtain ⟨_, -, -, faces, _, -, hLength, hModified⟩ :=
    (dice.ensures_roll true).of_run_eq_ok h
  rw [if_pos rfl, hPlain] at hModified
  cases hModified
  have hKept : ∀ v, (Die.ofFace v).isKept = true := fun _ => rfl
  simp [Rolled.ofFaces, List.filter_map, Function.comp_def, hKept, hLength]

/-- With a roller that stays inside the intervals it is asked for, every die of a
set that has been rolled shows a face of the dice, and counts for this face or for
a limit that is among the modifiers. If there are no limits, the total of a set
lies between the lowest face and the highest face times the dice in it, and there
is one if the latter is a value; without any modifiers all dice are in it. And if
nothing counts for less than zero, a total is refused just if the sum of the
integers is greater than all values. -/
theorem roll_in_range (hSides : dice.sides ≠ .numbered 0)
    (hRoller : roller.StaysInside)
    (h : (dice.roll true).run roller table = (.ok (.ok set), last)) :
    let lowest := dice.sides.minFace
    let highest := dice.sides.maxFace
    let kept := (set.rolls.filter Die.isKept).length
    (∀ die ∈ set.rolls, lowest ≤ die.face ∧ die.face ≤ highest ∧
      (die.counted = die.face ∨ .atLeast die.counted ∈ dice.modifiers ∨
        .atMost die.counted ∈ dice.modifiers)) ∧
    ((∀ m ∈ dice.modifiers, m.isLimit = false) →
      (∀ total, set.total = .ok total →
        kept * lowest.toInt ≤ total.toInt ∧ total.toInt ≤ kept * highest.toInt) ∧
      (kept * highest.toInt ≤ 0x7FFFFFFF → ∃ total, set.total = .ok total)) ∧
    (dice.modifiers = [] → ∀ total, set.total = .ok total →
      dice.count.toNat * lowest.toInt ≤ total.toInt ∧
        total.toInt ≤ dice.count.toNat * highest.toInt) ∧
    (dice.sides ≠ .fate →
      (∀ bound, .atLeast bound ∈ dice.modifiers ∨ .atMost bound ∈ dice.modifiers →
        0 ≤ bound) →
      ((∃ err, set.total = .error err) ↔ 0x7FFFFFFF < set.exactTotal)) := by
  intro lowest highest kept
  obtain ⟨hFaces, hHigh, hLow⟩ := Sides.face_bounds hSides
  have hFace : ∀ die ∈ set.rolls, lowest ≤ die.face ∧ die.face ≤ highest := by
    intro die hDie
    obtain ⟨first, hFaithful⟩ := (Rolled.Made.rolled h).faithful die hDie
    exact facesShown_of_run_roll hFaces hRoller h die hDie _ hFaithful.face_mem
  have hCounted := counted_of_run_roll h
  have hNoLimits : (∀ m ∈ dice.modifiers, m.isLimit = false) →
      ∀ n ∈ set.shares, lowest.toInt ≤ n ∧ n ≤ highest.toInt := by
    intro hNone
    refine Rolled.forall_mem_shares fun die hDie => ?_
    rcases hCounted die hDie with hSame | hLimit | hLimit
    · rw [hSame, ← Int32.le_iff_toInt_le, ← Int32.le_iff_toInt_le]
      exact hFace die hDie
    · cases hNone _ hLimit
    · cases hNone _ hLimit
  have hKept : set.shares.length = kept := set.length_shares
  have hTotal : (∀ m ∈ dice.modifiers, m.isLimit = false) →
      ∀ total, set.total = .ok total →
        kept * lowest.toInt ≤ total.toInt ∧ total.toInt ≤ kept * highest.toInt := by
    intro hNone total hOk
    have hBounds := Rolled.total_bounds (hNoLimits hNone) hOk
    rwa [hKept] at hBounds
  refine ⟨?single, fun hNone => ⟨hTotal hNone, fun hFits => ?bounded⟩, ?plain, ?fails⟩
  case single =>
    intro die hDie
    exact ⟨(hFace die hDie).1, (hFace die hDie).2, hCounted die hDie⟩
  case bounded =>
    rw [← hKept] at hFits
    exact Rolled.exists_total_of_le (hNoLimits hNone) hHigh hLow hFits
  case plain =>
    intro hPlain
    have hNone : ∀ m ∈ dice.modifiers, m.isLimit = false := by
      rw [hPlain]
      exact nofun
    have hCount : kept = dice.count.toNat := length_kept_of_plain hPlain h
    rw [← hCount]
    exact hTotal hNone
  case fails =>
    intro hFate hBounds
    refine Rolled.exists_total_eq_error_iff
      (Rolled.forall_mem_shares fun die hDie => ?_)
    rcases hCounted die hDie with hSame | hLimit | hLimit
    · have hLowest := Int32.le_iff_toInt_le.1 (hFace die hDie).1
      have hOne : lowest.toInt = 1 :=
        congrArg Int32.toInt (Sides.minFace_of_ne_fate hFate)
      rw [hSame]
      omega
    · exact Int32.le_iff_toInt_le.1 (hBounds _ (.inl hLimit))
    · exact Int32.le_iff_toInt_le.1 (hBounds _ (.inr hLimit))

/-- With a roller that gives the highest and the lowest face in turn, two dice show
a six and a one. The six explodes, and both ones on the table are thrown again. -/
theorem roll_in_range_exploding :
    (⟨fun n lo hi => .ok (if n % 2 = 0 then hi else lo, n + 1)⟩ :
        Roller Nat).StaysInside ∧
      ∃ (set : Rolled) (last : Table Nat),
        ((⟨2, .numbered 6, [.explode none, .reroll none false]⟩ : Dice).roll
            true).run ⟨fun n lo hi => .ok (if n % 2 = 0 then hi else lo, n + 1)⟩
              (Table.new 0) = (.ok (.ok set), last) ∧
        set.rolls.map Die.text = ["6!", "6!", "6r", "1r"] ∧
        (∀ die ∈ set.rolls, 1 ≤ die.face ∧ die.face ≤ 6) ∧
        (∃ total, set.total = .ok total) ∧
        (∀ total, set.total = .ok total →
          4 * 1 ≤ total.toInt ∧ total.toInt ≤ 4 * 6) ∧
        ¬ 0x7FFFFFFF < set.exactTotal := by
  have hRoller : (⟨fun n lo hi => .ok (if n % 2 = 0 then hi else lo, n + 1)⟩ :
      Roller Nat).StaysInside := by
    rintro n lo hi v next hRange ⟨⟩
    split
    · exact ⟨hRange, Int32.le_refl hi⟩
    · exact ⟨Int32.le_refl lo, hRange⟩
  have hRun : (((⟨2, .numbered 6, [.explode none, .reroll none false]⟩ :
      Dice).roll true).run ⟨fun n lo hi => .ok (if n % 2 = 0 then hi else lo, n + 1)⟩
        (Table.new 0)).1 =
      .ok (.ok ⟨⟨2, .numbered 6, [.explode none, .reroll none false]⟩,
        [(Die.ofFace 6).explode (.explode none),
          Explosion.follower (.explode none) (· == 6) 6,
          (Explosion.follower (.explode none) (· == 6) 1).change
            (.reroll none false) 6,
          (Die.ofFace 1).change (.reroll none false) 1]⟩) := by
    decide +kernel
  have hNone : ∀ m ∈ [Modifier.explode none, .reroll none false],
      m.isLimit = false := by
    decide
  obtain ⟨hFaces, hTotal, -, hFails⟩ :=
    roll_in_range (by decide) hRoller (Prod.fst_eq_iff.1 hRun)
  obtain ⟨total, hOk⟩ := (hTotal hNone).2 (by decide)
  refine ⟨hRoller, _, _, Prod.fst_eq_iff.1 hRun, rfl, ?_, ⟨total, hOk⟩,
    (hTotal hNone).1, fun hLarge => ?_⟩
  · exact fun die hDie => ⟨(hFaces die hDie).1, (hFaces die hDie).2.1⟩
  · obtain ⟨err, hErr⟩ := (hFails (by decide) (by simp)).2 hLarge
    rw [hOk] at hErr
    cases hErr

end Dice

end DiceFormula
