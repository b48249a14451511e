import DiceFormula.Proofs.Modifier.Application
import DiceFormula.Proofs.Modifier.Ranking

/-!
# Selections one after the other

A selection ranks what the one before it has left in the total. Since the ranking
is strict, that is the part of the first ranking that was not dropped: cutting it
again is cutting the first ranking at another place. So two selections of one kind
come to a single one, die by die. Keeping some dice and dropping the others from
the opposite end of the scale agree in what they leave only as far as the values
go, because of dice that count for the same either way favours those in front.

## Main results

* `ranked_dropped` — what is left is ranked as it was before.
* `rankedValues_opposite` — from the other end of the scale the values come in
  reverse.
* `Modifier.selections_compose` — what two selections in a row come to, and which
  selections complement each other.
-/

namespace DiceFormula

namespace Selection

variable {extreme : Extreme} {cause cause' cause'' : Modifier} {rolls : List Die}
  {left gone : List (Die × Nat)}

/-! ## The ranking of what is left -/

theorem Beats.asymm {a b : Die × Nat} (h : Beats extreme a b) :
    ¬ Beats extreme b a := by
  intro h'
  have hSame : a.1.counted = b.1.counted :=
    Int32.toInt_inj.1 (h.1.antisymm h'.1)
  have hFront := h.2 hSame
  have hBehind := h'.2 hSame.symm
  omega

/-- A ranking that has been cut in two still holds the dice in the total. -/
theorem ranked_cut_perm (extreme : Extreme) (n : Nat) (rolls : List Die) :
    ((ranked extreme rolls).take n ++ (ranked extreme rolls).drop n).Perm
      (entries rolls) := by
  rw [List.take_append_drop]
  exact ranked_perm extreme rolls

/-- The dice that are left are ranked as they were before. -/
theorem ranked_dropped (cause : Modifier) (h : (left ++ gone).Perm (entries rolls))
    (hRanked : left.Pairwise (Beats extreme)) :
    ranked extreme (dropped cause (gone.map Prod.snd) rolls) = left := by
  have hPerm := (ranked_perm extreme _).trans (entries_dropped_perm cause h)
  refine hPerm.eq_of_pairwise ?_ (pairwise_ranked extreme _) hRanked
  exact fun a b _ _ hab hba => absurd hba hab.asymm

theorem ranking_dropped_drop (cause : Modifier) (n : Nat) :
    ranking extreme (dropped cause ((ranking extreme rolls).drop n) rolls) =
      (ranking extreme rolls).take n := by
  have hRanked := (pairwise_ranked extreme rolls).sublist (List.take_sublist n _)
  have hCut := ranked_cut_perm extreme n rolls
  rw [ranking_eq, ranking_eq, ← List.map_drop, ranked_dropped cause hCut hRanked,
    List.map_take]

theorem ranking_dropped_take (cause : Modifier) (n : Nat) :
    ranking extreme (dropped cause ((ranking extreme rolls).take n) rolls) =
      (ranking extreme rolls).drop n := by
  have hRanked := (pairwise_ranked extreme rolls).sublist (List.drop_sublist n _)
  have hCut := List.perm_append_comm.trans (ranked_cut_perm extreme n rolls)
  rw [ranking_eq, ranking_eq, ← List.map_take, ranked_dropped cause hCut hRanked,
    List.map_drop]

/-! ## Dropping twice -/

/-- Dice that are dropped in two turns could have been dropped in one. -/
theorem map_isKept_dropped_dropped {first second both : List Nat}
    (h : ∀ i, i ∈ both ↔ i ∈ first ∨ i ∈ second) :
    (dropped cause' second (dropped cause first rolls)).map Die.isKept =
      (dropped cause'' both rolls).map Die.isKept := by
  refine List.ext_getElem? fun i => ?_
  simp only [List.getElem?_map, getElem?_dropped, Option.map_map]
  congr 1
  funext die
  by_cases hFirst : i ∈ first
  · by_cases hSecond : i ∈ second <;> simp [h, hFirst, hSecond, Die.isKept]
  · by_cases hSecond : i ∈ second <;> simp [h, hFirst, hSecond, Die.isKept]

/-- What is behind the smaller of two places is behind the first of them, or
behind the second one and still in front of the first. -/
theorem mem_drop_min_iff {positions : List Nat} {n m i : Nat} :
    i ∈ positions.drop (min n m) ↔
      i ∈ positions.drop n ∨ i ∈ (positions.take n).drop m := by
  rcases Nat.le_total n m with hLe | hLe
  · have hNil : (positions.take n).drop m = [] := by
      rw [List.drop_eq_nil_iff, List.length_take]
      omega
    rw [Nat.min_eq_left hLe, hNil]
    simp
  · have hSplit : positions.drop m =
        (positions.take n).drop m ++ positions.drop n := by
      rw [List.drop_take, ← Nat.add_sub_of_le hLe, ← List.drop_drop,
        Nat.add_sub_of_le hLe, List.take_append_drop]
    rw [Nat.min_eq_right hLe, hSplit, List.mem_append, or_comm]

/-! ## Values from both ends -/

/-- What the dice in the total count for, in the order of their rank. -/
def rankedValues (extreme : Extreme) (rolls : List Die) : List Value :=
  (ranked extreme rolls).map fun entry => entry.1.counted

theorem length_rankedValues (extreme : Extreme) (rolls : List Die) :
    (rankedValues extreme rolls).length = (rolls.filter Die.isKept).length := by
  rw [rankedValues, List.length_map, length_ranked]

theorem pairwise_rankedValues (extreme : Extreme) (rolls : List Die) :
    (rankedValues extreme rolls).Pairwise fun v w =>
      extreme.Leads v.toInt w.toInt :=
  List.pairwise_map.2 ((pairwise_ranked extreme rolls).imp fun h => h.1)

/-- From the other end of the scale the values come in reverse. -/
theorem rankedValues_opposite (extreme : Extreme) (rolls : List Die) :
    rankedValues extreme.opposite rolls = (rankedValues extreme rolls).reverse := by
  have hEntries : (ranked extreme.opposite rolls).Perm (ranked extreme rolls) :=
    (ranked_perm _ rolls).trans (ranked_perm _ rolls).symm
  have hPerm : (rankedValues extreme.opposite rolls).Perm
      (rankedValues extreme rolls).reverse :=
    (hEntries.map _).trans (List.reverse_perm _).symm
  refine hPerm.eq_of_pairwise ?_ (pairwise_rankedValues extreme.opposite rolls) ?_
  · intro v w _ _ h h'
    exact Int32.toInt_inj.1 (Extreme.Leads.antisymm h h')
  · rw [List.pairwise_reverse]
    exact (pairwise_rankedValues extreme rolls).imp Extreme.leads_opposite.2

/-- The values that count afterwards are those of the dice that are left. -/
theorem counted_dropped_perm (cause : Modifier)
    (h : (left ++ gone).Perm (entries rolls)) :
    (((dropped cause (gone.map Prod.snd) rolls).filter Die.isKept).map
      Die.counted).Perm (left.map fun entry => entry.1.counted) := by
  rw [← map_fst_entries, List.map_map]
  exact (entries_dropped_perm cause h).map _

theorem counted_dropped_drop_perm (cause : Modifier) (n : Nat) :
    (((dropped cause ((ranking extreme rolls).drop n) rolls).filter
      Die.isKept).map Die.counted).Perm ((rankedValues extreme rolls).take n) := by
  rw [ranking_eq, ← List.map_drop, rankedValues, ← List.map_take]
  exact counted_dropped_perm cause (ranked_cut_perm extreme n rolls)

theorem counted_dropped_take_perm (cause : Modifier) (n : Nat) :
    (((dropped cause ((ranking extreme rolls).take n) rolls).filter
      Die.isKept).map Die.counted).Perm ((rankedValues extreme rolls).drop n) := by
  have hCut := List.perm_append_comm.trans (ranked_cut_perm extreme n rolls)
  rw [ranking_eq, ← List.map_take, rankedValues, ← List.map_drop]
  exact counted_dropped_perm cause hCut

/-- Keeping dice from one end of the scale and dropping the others from the
opposite end leaves the same values. -/
theorem counted_complement_perm {n k : Nat}
    (h : n + k = (rolls.filter Die.isKept).length) :
    (((dropped cause ((ranking extreme rolls).drop n) rolls).filter
      Die.isKept).map Die.counted).Perm
    (((dropped cause' ((ranking extreme.opposite rolls).take k) rolls).filter
      Die.isKept).map Die.counted) := by
  have hRest : (rankedValues extreme.opposite rolls).drop k =
      ((rankedValues extreme rolls).take n).reverse := by
    rw [rankedValues_opposite, List.drop_reverse, length_rankedValues, ← h,
      Nat.add_sub_cancel]
  refine (counted_dropped_drop_perm cause n).trans ?_
  refine (List.reverse_perm _).symm.trans ?_
  rw [← hRest]
  exact (counted_dropped_take_perm cause' k).symm

end Selection

open Selection

namespace Modifier

variable {σ : Type}

section Runs

variable {extreme : Extreme} {set set' : Rolled} {ms : List Modifier}
  {roller : Roller σ} {table last : Table σ}

/-- A list that starts with keeping dice goes on from the dice that are left. -/
theorem run_modify_keep_cons (n : UInt16)
    (h : (Rolled.modify ⟨set.dice, dropped (keep extreme n)
      ((ranking extreme set.rolls).drop n.toNat) set.rolls⟩ ms).run roller table =
        (.ok (.ok set'), last)) :
    (set.modify (keep extreme n :: ms)).run roller table = (.ok (.ok set'), last) :=
  Rolled.run_modify_cons_eq_ok_iff.2
    ⟨_, table, apply_keep extreme n set roller table, h⟩

/-- A list that starts with dropping dice goes on from the dice that are left. -/
theorem run_modify_drop_cons (n : UInt16)
    (h : (Rolled.modify ⟨set.dice, dropped (drop extreme n)
      ((ranking extreme set.rolls).take n.toNat) set.rolls⟩ ms).run roller table =
        (.ok (.ok set'), last)) :
    (set.modify (drop extreme n :: ms)).run roller table = (.ok (.ok set'), last) :=
  Rolled.run_modify_cons_eq_ok_iff.2
    ⟨_, table, apply_drop extreme n set roller table, h⟩

end Runs

/-- Two selections in a row. Keeping `n` dice and then `m` of them leaves the same
dice in the total as keeping the smaller number, and dropping `a` dice and then `b`
more leaves the same dice as dropping `a + b` of them, if that is a count. Keeping
`n` dice and dropping the `k` others from the opposite end of the scale leaves dice
that count for the same values. Nothing is thrown for it, and dice that have been
dropped before or count for the same as others make no difference. -/
theorem selections_compose (extreme : Extreme) (set : Rolled) (roller : Roller σ)
    (table : Table σ) :
    (∀ n m : UInt16, ∃ twice once,
      (set.modify [keep extreme n, keep extreme m]).run roller table =
          (.ok (.ok twice), table) ∧
        (set.modify [keep extreme (min n m)]).run roller table =
          (.ok (.ok once), table) ∧
        twice.rolls.map Die.isKept = once.rolls.map Die.isKept) ∧
    (∀ a b : UInt16, a.toNat + b.toNat ≤ 65535 → ∃ twice once,
      (set.modify [drop extreme a, drop extreme b]).run roller table =
          (.ok (.ok twice), table) ∧
        (set.modify [drop extreme (a + b)]).run roller table =
          (.ok (.ok once), table) ∧
        twice.rolls.map Die.isKept = once.rolls.map Die.isKept) ∧
    ∀ n k : UInt16,
      n.toNat + k.toNat = (set.rolls.filter Die.isKept).length → ∃ kept rest,
      (set.modify [keep extreme n]).run roller table = (.ok (.ok kept), table) ∧
        (set.modify [drop extreme.opposite k]).run roller table =
          (.ok (.ok rest), table) ∧
        ((kept.rolls.filter Die.isKept).map Die.counted).Perm
          ((rest.rolls.filter Die.isKept).map Die.counted) := by
  refine ⟨fun n m => ?_, fun a b hFits => ?_, fun n k hCount => ?_⟩
  · refine ⟨_, _, run_modify_keep_cons _ (run_modify_keep_cons _ rfl),
      run_modify_keep_cons _ rfl, ?_⟩
    refine map_isKept_dropped_dropped fun i => ?_
    rw [ranking_dropped_drop, UInt16.toNat_min]
    exact mem_drop_min_iff
  · refine ⟨_, _, run_modify_drop_cons _ (run_modify_drop_cons _ rfl),
      run_modify_drop_cons _ rfl, ?_⟩
    have hSum : (a + b).toNat = a.toNat + b.toNat := by
      rw [UInt16.toNat_add]
      omega
    refine map_isKept_dropped_dropped fun i => ?_
    rw [ranking_dropped_take, hSum, List.take_add, List.mem_append]
  · refine ⟨_, _, run_modify_keep_cons _ rfl, run_modify_drop_cons _ rfl, ?_⟩
    exact counted_complement_perm hCount

/-- Five dice on the table, of which a six has been dropped and two count for
three. -/
def tiedSet : Rolled :=
  ⟨⟨5, .numbered 6, []⟩, [.ofFace 3, .ofFace 5,
    { Die.ofFace 6 with droppedBy := some (.drop .highest 1) }, .ofFace 3,
    .ofFace 1]⟩

/-- Among dice that count for the same, the three lowest dice can be dropped one
and two at a time, and the highest die is left as well when three are dropped. -/
theorem selections_compose_tied :
    (1 : UInt16).toNat + (2 : UInt16).toNat ≤ 65535 ∧
      (1 : UInt16).toNat + (3 : UInt16).toNat =
        (tiedSet.rolls.filter Die.isKept).length ∧
      (∃ twice once,
        (tiedSet.modify [drop .lowest 1, drop .lowest 2]).run Roller.highest
            (.new ()) = (.ok (.ok twice), .new ()) ∧
          (tiedSet.modify [drop .lowest (1 + 2)]).run Roller.highest (.new ()) =
            (.ok (.ok once), .new ()) ∧
          twice.rolls.map Die.isKept = once.rolls.map Die.isKept) ∧
      ∃ kept rest,
        (tiedSet.modify [keep .highest 1]).run Roller.highest (.new ()) =
            (.ok (.ok kept), .new ()) ∧
          (tiedSet.modify [drop .lowest 3]).run Roller.highest (.new ()) =
            (.ok (.ok rest), .new ()) ∧
          ((kept.rolls.filter Die.isKept).map Die.counted).Perm
            ((rest.rolls.filter Die.isKept).map Die.counted) := by
  have hFits : (1 : UInt16).toNat + (2 : UInt16).toNat ≤ 65535 := by decide
  have hCount : (1 : UInt16).toNat + (3 : UInt16).toNat =
      (tiedSet.rolls.filter Die.isKept).length := by decide
  obtain ⟨-, hDrop, -⟩ :=
    selections_compose .lowest tiedSet Roller.highest (.new ())
  obtain ⟨-, -, hComplement⟩ :=
    selections_compose .highest tiedSet Roller.highest (.new ())
  exact ⟨hFits, hCount, hDrop 1 2 hFits, hComplement 1 3 hCount⟩

end Modifier

end DiceFormula
