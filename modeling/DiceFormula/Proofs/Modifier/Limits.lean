import DiceFormula.Proofs.Dice.Provenance

/-!
# Limits one after the other

A limit throws nothing and looks at each die by itself, so a list of limits is a
function of single dice, and what two limits have to do with each other is settled on
one die. A lower limit and an upper one that leave room for a value cannot both be
missed by the same die: one of them at most changes it, and so their order does not
matter, neither for the value nor for the log. If they leave no room, the first one
puts every die beyond the second.

## Main results

* `Die.limited_comm`, `Die.limited_limited` — limits that leave room can change
  places, and a limit that has been applied has nothing left to do.
* `Die.Revalued.trans` — what two changes of the value come to.
* `Rolled.run_modify_limits` — what a list of limits makes of a set.
* `Modifier.limits_compose` — what two limits in a row come to.
-/

namespace DiceFormula

variable {σ : Type}

/-! ## One die -/

namespace Die

/-- What a limit makes of the die. -/
def limited (die : Die) (m : Modifier) : Die :=
  match m with
  | .atLeast bound =>
    if die.isKept && die.counted < bound then die.clamp m bound else die
  | .atMost bound =>
    if die.isKept && bound < die.counted then die.clamp m bound else die
  | _ => die

section Steps

variable {die : Die} {m : Modifier} {bound low high : Value}

theorem limited_of_not_isKept (h : die.isKept = false) : die.limited m = die := by
  cases m with
  | atLeast _ | atMost _ => simp [limited, h]
  | keep _ _ | drop _ _ | explode _ | reroll _ _ => rfl

theorem limited_atLeast_of_le (h : bound ≤ die.counted) :
    die.limited (.atLeast bound) = die := by
  simp [limited, h]

theorem limited_atLeast_of_lt (hKept : die.isKept = true) (h : die.counted < bound) :
    die.limited (.atLeast bound) = die.clamp (.atLeast bound) bound := by
  simp [limited, hKept, h]

theorem limited_atMost_of_le (h : die.counted ≤ bound) :
    die.limited (.atMost bound) = die := by
  simp [limited, h]

theorem limited_atMost_of_lt (hKept : die.isKept = true) (h : bound < die.counted) :
    die.limited (.atMost bound) = die.clamp (.atMost bound) bound := by
  simp [limited, hKept, h]

/-- Limits that leave room for a value can change places. -/
theorem limited_comm (h : low ≤ high) (die : Die) :
    (die.limited (.atLeast low)).limited (.atMost high) =
      (die.limited (.atMost high)).limited (.atLeast low) := by
  cases hKept : die.isKept with
  | false => simp only [limited_of_not_isKept hKept]
  | true =>
      -- Each limit that changes the die leaves it where the other one lets it be.
      rcases Int32.lt_or_le die.counted low with hBelow | hLow
      · have hRoom : die.counted ≤ high :=
          Int32.le_trans (Int32.le_of_lt hBelow) h
        have hSettled : (die.clamp (.atLeast low) low).counted ≤ high := h
        rw [limited_atMost_of_le hRoom, limited_atLeast_of_lt hKept hBelow,
          limited_atMost_of_le hSettled]
      · rw [limited_atLeast_of_le hLow]
        rcases Int32.lt_or_le high die.counted with hAbove | hHigh
        · have hSettled : low ≤ (die.clamp (.atMost high) high).counted := h
          rw [limited_atMost_of_lt hKept hAbove, limited_atLeast_of_le hSettled]
        · rw [limited_atMost_of_le hHigh, limited_atLeast_of_le hLow]

/-- A limit that has been applied has nothing left to do. -/
theorem limited_limited (die : Die) (m : Modifier) :
    (die.limited m).limited m = die.limited m := by
  cases hKept : die.isKept with
  | false => simp only [limited_of_not_isKept hKept]
  | true =>
      cases m with
      | atLeast bound =>
          rcases Int32.lt_or_le die.counted bound with hBelow | hLow
          · rw [limited_atLeast_of_lt hKept hBelow]
            exact limited_atLeast_of_le (Int32.le_refl bound)
          · simp only [limited_atLeast_of_le hLow]
      | atMost bound =>
          rcases Int32.lt_or_le bound die.counted with hAbove | hHigh
          · rw [limited_atMost_of_lt hKept hAbove]
            exact limited_atMost_of_le (Int32.le_refl bound)
          · simp only [limited_atMost_of_le hHigh]
      | keep _ _ | drop _ _ | explode _ | reroll _ _ => rfl

end Steps

/-! ### Changes of the value -/

/-- The value of a die in the total has become what `worth` makes of it, with at most
`n` changes in the log. The face of the die and its marks are as they were, and
nothing has happened to a die that is out of the total. -/
structure Revalued (n : Nat) (worth : Int → Int) (die die' : Die) : Prop where
  same : die' = { die with counted := die'.counted, changes := die'.changes }
  frozen : die.isKept = false → die' = die
  counted : die.isKept = true → die'.counted.toInt = worth die.counted.toInt
  changes : ∃ log, die'.changes = die.changes ++ log ∧ log.length ≤ n

namespace Revalued

variable {die die' die'' : Die} {n k : Nat} {worth worth' : Int → Int}

theorem isKept_eq (h : die.Revalued n worth die') : die'.isKept = die.isKept := by
  rw [h.same]
  rfl

/-- A die that is let alone has the value it is to have if that is its own. -/
theorem refl (h : die.isKept = true → worth die.counted.toInt = die.counted.toInt) :
    die.Revalued n worth die :=
  ⟨rfl, fun _ => rfl, fun hKept => (h hKept).symm, [], by simp, Nat.zero_le n⟩

theorem clamp (hKept : die.isKept = true) (cause : Modifier) {v : Value}
    (h : v.toInt = worth die.counted.toInt) :
    die.Revalued 1 worth (die.clamp cause v) := by
  refine ⟨rfl, fun hDropped => ?_, fun _ => h, [_], rfl, Nat.le_refl 1⟩
  rw [hDropped] at hKept
  cases hKept

theorem congr (h : die.Revalued n worth die')
    (hWorth : worth die.counted.toInt = worth' die.counted.toInt) :
    die.Revalued n worth' die' :=
  ⟨h.same, h.frozen, fun hKept => (h.counted hKept).trans hWorth, h.changes⟩

/-- Two changes of the value, one after the other. -/
theorem trans (h : die.Revalued n worth die') (h' : die'.Revalued k worth' die'') :
    die.Revalued (n + k) (worth' ∘ worth) die'' := by
  refine ⟨?_, fun hDropped => ?_, fun hKept => ?_, ?_⟩
  · rw [h'.same, h.same]
  · rw [h'.frozen (h.isKept_eq.trans hDropped), h.frozen hDropped]
  · rw [h'.counted (h.isKept_eq.trans hKept), h.counted hKept, Function.comp]
  · obtain ⟨log, hLog, hLength⟩ := h.changes
    obtain ⟨log', hLog', hLength'⟩ := h'.changes
    refine ⟨log ++ log', ?_, ?_⟩
    · rw [hLog', hLog, List.append_assoc]
    · rw [List.length_append]
      exact Nat.add_le_add hLength hLength'

theorem of_not_isKept (h : die.isKept = false) (m : Modifier) :
    die.Revalued n worth (die.limited m) := by
  rw [limited_of_not_isKept h]
  refine .refl fun hKept => ?_
  rw [h] at hKept
  cases hKept

/-- A lower limit raises the value to itself. -/
theorem raised (bound : Value) (die : Die) :
    die.Revalued 1 (max bound.toInt) (die.limited (.atLeast bound)) := by
  cases hKept : die.isKept with
  | false => exact .of_not_isKept hKept _
  | true =>
      rcases Int32.lt_or_le die.counted bound with hBelow | hLow
      · rw [limited_atLeast_of_lt hKept hBelow]
        rw [Int32.lt_iff_toInt_lt] at hBelow
        exact .clamp hKept _ (by omega)
      · rw [limited_atLeast_of_le hLow]
        rw [Int32.le_iff_toInt_le] at hLow
        exact .refl fun _ => by omega

/-- An upper limit lowers it. -/
theorem lowered (bound : Value) (die : Die) :
    die.Revalued 1 (min bound.toInt) (die.limited (.atMost bound)) := by
  cases hKept : die.isKept with
  | false => exact .of_not_isKept hKept _
  | true =>
      rcases Int32.lt_or_le bound die.counted with hAbove | hHigh
      · rw [limited_atMost_of_lt hKept hAbove]
        rw [Int32.lt_iff_toInt_lt] at hAbove
        exact .clamp hKept _ (by omega)
      · rw [limited_atMost_of_le hHigh]
        rw [Int32.le_iff_toInt_le] at hHigh
        exact .refl fun _ => by omega

/-- Limits that leave room for a value change the die once at most. -/
theorem confined {low high : Value} (h : low ≤ high) (die : Die) :
    die.Revalued 1 (fun v => max low.toInt (min v high.toInt))
      ((die.limited (.atLeast low)).limited (.atMost high)) := by
  have hRoom := Int32.le_iff_toInt_le.1 h
  rcases Int32.lt_or_le die.counted low with hBelow | hLow
  · -- A die out of the total stays below both limits, and one in it is raised to
    -- the lower one.
    have hHigh : (die.limited (.atLeast low)).counted ≤ high := by
      cases hKept : die.isKept with
      | false =>
          rw [limited_of_not_isKept hKept]
          exact Int32.le_trans (Int32.le_of_lt hBelow) h
      | true =>
          rw [limited_atLeast_of_lt hKept hBelow]
          exact h
    rw [limited_atMost_of_le hHigh]
    rw [Int32.lt_iff_toInt_lt] at hBelow
    exact (raised low die).congr (by omega)
  · rw [limited_atLeast_of_le hLow]
    rw [Int32.le_iff_toInt_le] at hLow
    exact (lowered high die).congr (by omega)

/-- If the limits leave no room, the upper one has the last word where it comes
last. -/
theorem lowered_last {low high : Value} (h : high < low) (die : Die) :
    die.Revalued 2 (fun _ => high.toInt)
      ((die.limited (.atLeast low)).limited (.atMost high)) := by
  rw [Int32.lt_iff_toInt_lt] at h
  refine ((raised low die).trans (lowered high _)).congr ?_
  simp only [Function.comp]
  omega

/-- And so has the lower one. -/
theorem raised_last {low high : Value} (h : high < low) (die : Die) :
    die.Revalued 2 (fun _ => low.toInt)
      ((die.limited (.atMost high)).limited (.atLeast low)) := by
  rw [Int32.lt_iff_toInt_lt] at h
  refine ((lowered high die).trans (raised low _)).congr ?_
  simp only [Function.comp]
  omega

theorem forall₂_map {f : Die → Die} (h : ∀ die, Revalued n worth die (f die))
    (rolls : List Die) : List.Forall₂ (Revalued n worth) rolls (rolls.map f) := by
  rw [List.forall₂_map_right_iff, List.forall₂_same]
  exact fun die _ => h die

end Revalued

end Die

/-! ## Sets -/

/-- A limit lets every die of the set count for what it makes of it. -/
theorem Modifier.apply_limit {m : Modifier} (h : m.isLimit = true) (set : Rolled)
    (roller : Roller σ) (table : Table σ) :
    m.apply set roller table =
      (.ok (⟨set.dice, set.rolls.map (Die.limited · m)⟩, none), table) := by
  cases m with
  | atLeast _ | atMost _ => rfl
  | keep _ _ | drop _ _ | explode _ | reroll _ _ => cases h

/-- A list of limits changes the dice one by one, and nothing else. -/
theorem Rolled.run_modify_limits {ms : List Modifier}
    (h : ∀ m ∈ ms, m.isLimit = true) (set : Rolled) (roller : Roller σ)
    (table : Table σ) :
    (set.modify ms).run roller table =
      (.ok (.ok ⟨set.dice, set.rolls.map fun die => ms.foldl Die.limited die⟩),
        table) := by
  induction ms generalizing set with
  | nil =>
      simp only [List.foldl_nil, List.map_id']
      rfl
  | cons m ms ih =>
      obtain ⟨hFirst, hRest⟩ := List.forall_mem_cons.1 h
      refine run_modify_cons_eq_ok_iff.2
        ⟨_, table, Modifier.apply_limit hFirst set roller table, ?_⟩
      rw [ih hRest, List.map_map]
      rfl

/-- Two limits in a row. Applying a lower and an upper limit that leave room for a
value gives one and the same set in either order, logs included: the values of the
dice in the total are confined to what is between the limits, and no die has more than
one new change. If the limits leave no room, every die in the total counts for the one
that was applied last. A limit that is applied again changes nothing. No more than that
happens: the dice keep their faces and marks, those that are out of the total are not
touched, and nothing is thrown. -/
theorem Modifier.limits_compose (set : Rolled) (roller : Roller σ) (table : Table σ) :
    (∀ low high : Value, low ≤ high → ∃ rolls,
      (set.modify [atLeast low, atMost high]).run roller table =
          (.ok (.ok ⟨set.dice, rolls⟩), table) ∧
        (set.modify [atMost high, atLeast low]).run roller table =
          (.ok (.ok ⟨set.dice, rolls⟩), table) ∧
        List.Forall₂ (Die.Revalued 1 fun v => max low.toInt (min v high.toInt))
          set.rolls rolls) ∧
    (∀ low high : Value, high < low → ∃ lowered raised,
      (set.modify [atLeast low, atMost high]).run roller table =
          (.ok (.ok ⟨set.dice, lowered⟩), table) ∧
        List.Forall₂ (Die.Revalued 2 fun _ => high.toInt) set.rolls lowered ∧
        (set.modify [atMost high, atLeast low]).run roller table =
          (.ok (.ok ⟨set.dice, raised⟩), table) ∧
        List.Forall₂ (Die.Revalued 2 fun _ => low.toInt) set.rolls raised) ∧
    ∀ m : Modifier, m.isLimit = true → ∃ once,
      m.apply set roller table = (.ok (once, none), table) ∧
        m.apply once roller table = (.ok (once, none), table) := by
  have hBoth : ∀ v w : Value, (∀ m ∈ [atLeast v, atMost w], m.isLimit = true) ∧
      ∀ m ∈ [atMost w, atLeast v], m.isLimit = true := by
    intro v w
    simp [isLimit]
  refine ⟨fun low high hRoom => ?_, fun low high hCross => ?_, fun m hLimit => ?_⟩
  · obtain ⟨hUp, hDown⟩ := hBoth low high
    refine ⟨_, Rolled.run_modify_limits hUp set roller table, ?_,
      Die.Revalued.forall₂_map (.confined hRoom) set.rolls⟩
    rw [Rolled.run_modify_limits hDown]
    simp only [List.foldl_cons, List.foldl_nil, Die.limited_comm hRoom]
  · obtain ⟨hUp, hDown⟩ := hBoth low high
    exact ⟨_, _, Rolled.run_modify_limits hUp set roller table,
      Die.Revalued.forall₂_map (.lowered_last hCross) set.rolls,
      Rolled.run_modify_limits hDown set roller table,
      Die.Revalued.forall₂_map (.raised_last hCross) set.rolls⟩
  · refine ⟨_, apply_limit hLimit set roller table, ?_⟩
    rw [apply_limit hLimit, List.map_map]
    simp only [Function.comp_def, Die.limited_limited]

/-- Four dice on the table: a one, a six, a one that has been dropped, and a three
that already counts for four. -/
def limitedSet : Rolled :=
  ⟨⟨4, .numbered 6, []⟩, [.ofFace 1, .ofFace 6,
    { Die.ofFace 1 with droppedBy := some (.drop .lowest 1) },
    (Die.ofFace 3).clamp (.atLeast 4) 4]⟩

/-- Limits that leave room for two to five, and limits that leave none, on dice of
which one is out of the total and one has been limited before. -/
theorem Modifier.limits_compose_limited :
    (2 : Value) ≤ 5 ∧ (2 : Value) < 5 ∧ (atLeast 2).isLimit = true ∧
      (∃ rolls,
        (limitedSet.modify [atLeast 2, atMost 5]).run Roller.highest (.new ()) =
            (.ok (.ok ⟨limitedSet.dice, rolls⟩), .new ()) ∧
          (limitedSet.modify [atMost 5, atLeast 2]).run Roller.highest (.new ()) =
            (.ok (.ok ⟨limitedSet.dice, rolls⟩), .new ()) ∧
          List.Forall₂ (Die.Revalued 1 fun v =>
            max (2 : Value).toInt (min v (5 : Value).toInt)) limitedSet.rolls rolls) ∧
      (∃ lowered raised,
        (limitedSet.modify [atLeast 5, atMost 2]).run Roller.highest (.new ()) =
            (.ok (.ok ⟨limitedSet.dice, lowered⟩), .new ()) ∧
          List.Forall₂ (Die.Revalued 2 fun _ => (2 : Value).toInt) limitedSet.rolls
            lowered ∧
          (limitedSet.modify [atMost 2, atLeast 5]).run Roller.highest (.new ()) =
            (.ok (.ok ⟨limitedSet.dice, raised⟩), .new ()) ∧
          List.Forall₂ (Die.Revalued 2 fun _ => (5 : Value).toInt) limitedSet.rolls
            raised) ∧
      ∃ once,
        (atLeast 2).apply limitedSet Roller.highest (.new ()) =
            (.ok (once, none), .new ()) ∧
          (atLeast 2).apply once Roller.highest (.new ()) =
            (.ok (once, none), .new ()) := by
  have hRoom : (2 : Value) ≤ 5 := by decide
  have hCross : (2 : Value) < 5 := by decide
  have hLimit : (atLeast 2).isLimit = true := rfl
  obtain ⟨hConfined, hOutdone, hAgain⟩ :=
    limits_compose limitedSet Roller.highest (.new ())
  exact ⟨hRoom, hCross, hLimit, hConfined 2 5 hRoom, hOutdone 5 2 hCross,
    hAgain (atLeast 2) hLimit⟩

end DiceFormula
