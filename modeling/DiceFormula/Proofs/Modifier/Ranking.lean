import DiceFormula.Modifier.Application
import DiceFormula.Proofs.Modifier.Selection
import Mathlib.Algebra.Order.BigOperators.Group.List
import Mathlib.Algebra.Order.Ring.Int
import Mathlib.Data.List.Dedup

/-!
# Selections choose the right dice

A selection ranks the dice in the total and cuts the ranking in two. The sort
behind the ranking is stable, so that the ranking is strict: of two dice, the one
in front lies further toward the extreme, or counts for the same and lies in front
on the table as well. Every die of the first part therefore beats every die of the
second, and among all choices of as many dice the first part has the extreme sum.

## Main results

* `pairwise_ranked` — the ranking is strict.
* `sum_le_of_best` — the best dice have the greatest sum.
* `Chosen.of_split` — what is left when a ranking has been cut in two.
* `Modifier.selection_chooses` — what keeping and dropping dice comes to.
-/

namespace DiceFormula

open Selection

/-! ## Toward an extreme -/

namespace Extreme

/-- The other end of the scale. -/
def opposite : Extreme → Extreme
  | highest => lowest
  | lowest => highest

/-- Whether `a` lies at least as far toward the extreme as `b`. -/
def Leads : Extreme → (a b : Int) → Prop
  | highest, a, b => b ≤ a
  | lowest, a, b => a ≤ b

variable {extreme : Extreme}

theorem leads_opposite {a b : Int} :
    extreme.opposite.Leads a b ↔ extreme.Leads b a := by
  cases extreme <;> exact Iff.rfl

theorem ranks_iff {v w : Value} :
    extreme.ranks v w = true ↔ extreme.Leads v.toInt w.toInt := by
  cases extreme <;> simp [ranks, Leads, Int32.le_iff_toInt_le]

theorem Leads.trans {a b c : Int} (h : extreme.Leads a b)
    (h' : extreme.Leads b c) : extreme.Leads a c := by
  cases extreme with
  | highest => exact Int.le_trans h' h
  | lowest => exact Int.le_trans h h'

theorem Leads.antisymm {a b : Int} (h : extreme.Leads a b)
    (h' : extreme.Leads b a) : a = b := by
  cases extreme with
  | highest => exact Int.le_antisymm h' h
  | lowest => exact Int.le_antisymm h h'

theorem leads_total (extreme : Extreme) (a b : Int) :
    extreme.Leads a b ∨ extreme.Leads b a := by
  cases extreme with
  | highest => exact Int.le_total b a
  | lowest => exact Int.le_total a b

theorem leads_of_eq {a b : Int} (h : a = b) : extreme.Leads a b := by
  cases extreme with
  | highest => exact Int.le_of_eq h.symm
  | lowest => exact Int.le_of_eq h

end Extreme

namespace Selection

variable {extreme : Extreme} {cause : Modifier} {rolls : List Die}

/-! ## Entries -/

/-- The dice in the total with their positions, as they lie on the table. -/
def entries (rolls : List Die) : List (Die × Nat) :=
  rolls.zipIdx.filter fun entry => entry.1.isKept

theorem mem_entries {entry : Die × Nat} :
    entry ∈ entries rolls ↔
      rolls[entry.2]? = some entry.1 ∧ entry.1.isKept = true := by
  rw [entries, List.mem_filter, List.mem_zipIdx_iff_getElem?]

/-- The positions grow along the entries. -/
theorem pairwise_entries (rolls : List Die) :
    (entries rolls).Pairwise fun a b => a.2 < b.2 := by
  have hPositions : (rolls.zipIdx.map Prod.snd).Pairwise (· < ·) := by
    rw [List.zipIdx_map_snd]
    exact List.pairwise_lt_range'
  exact (List.pairwise_map.1 hPositions).filter _

theorem nodup_entries (rolls : List Die) : (entries rolls).Nodup := by
  refine (pairwise_entries rolls).imp ?_
  rintro a b hLess rfl
  exact Nat.lt_irrefl _ hLess

theorem map_fst_entries (rolls : List Die) :
    (entries rolls).map Prod.fst = rolls.filter Die.isKept := by
  have hDice := List.zipIdx_map_fst 0 rolls
  conv_rhs => rw [← hDice, List.filter_map]
  rfl

/-! ## The ranking -/

/-- Elements that may be sorted one way or the other keep their order. -/
theorem filter_mergeSort {α : Type} {le : α → α → Bool} {p : α → Bool}
    {l : List α} (trans : ∀ a b c, le a b = true → le b c = true → le a c = true)
    (total : ∀ a b, (le a b || le b a) = true)
    (h : ∀ a b, p a = true → p b = true → le a b = true) :
    (l.mergeSort le).filter p = l.filter p := by
  have hSorted : (l.filter p).Pairwise fun a b => le a b = true :=
    List.pairwise_of_forall_mem_list fun a ha b hb =>
      h a b (List.mem_filter.1 ha).2 (List.mem_filter.1 hb).2
  have hSublist : ((l.filter p).filter p).Sublist ((l.mergeSort le).filter p) :=
    (List.sublist_mergeSort trans total hSorted List.filter_sublist).filter p
  rw [List.filter_filter] at hSublist
  simp only [Bool.and_self] at hSublist
  have hLength : (l.filter p).length = ((l.mergeSort le).filter p).length :=
    ((List.mergeSort_perm l le).filter p).length_eq.symm
  exact (hSublist.eq_of_length hLength).symm

/-- The dice in the total with their positions, in the order of their rank. -/
def ranked (extreme : Extreme) (rolls : List Die) : List (Die × Nat) :=
  (entries rolls).mergeSort fun a b =>
    extreme.ranks a.1.counted b.1.counted

theorem ranking_eq (extreme : Extreme) (rolls : List Die) :
    ranking extreme rolls = (ranked extreme rolls).map Prod.snd := rfl

theorem ranked_perm (extreme : Extreme) (rolls : List Die) :
    (ranked extreme rolls).Perm (entries rolls) :=
  List.mergeSort_perm _ _

theorem length_ranked (extreme : Extreme) (rolls : List Die) :
    (ranked extreme rolls).length = (rolls.filter Die.isKept).length := by
  rw [(ranked_perm extreme rolls).length_eq, ← map_fst_entries, List.length_map]

/-- A die in front counts for more toward the extreme, or for the same and lies in
front. -/
def Beats (extreme : Extreme) (a b : Die × Nat) : Prop :=
  extreme.Leads a.1.counted.toInt b.1.counted.toInt ∧
    (a.1.counted = b.1.counted → a.2 < b.2)

/-- The ranking is strict. -/
theorem pairwise_ranked (extreme : Extreme) (rolls : List Die) :
    (ranked extreme rolls).Pairwise (Beats extreme) := by
  have hTrans : ∀ a b c : Die × Nat,
      extreme.ranks a.1.counted b.1.counted = true →
        extreme.ranks b.1.counted c.1.counted = true →
          extreme.ranks a.1.counted c.1.counted = true := by
    intro a b c hab hbc
    exact Extreme.ranks_iff.2
      ((Extreme.ranks_iff.1 hab).trans (Extreme.ranks_iff.1 hbc))
  have hTotal : ∀ a b : Die × Nat, (extreme.ranks a.1.counted b.1.counted ||
      extreme.ranks b.1.counted a.1.counted) = true := by
    intro a b
    rw [Bool.or_eq_true, Extreme.ranks_iff, Extreme.ranks_iff]
    exact extreme.leads_total _ _
  refine ((List.pairwise_mergeSort hTrans hTotal (entries rolls)).imp
    Extreme.ranks_iff.1).and ?_
  -- Two dice that count for the same stand in the ranking as they lie.
  refine List.pairwise_iff_forall_sublist.2 fun {a b} hPair hSame => ?_
  have hTies : (ranked extreme rolls).filter
        (fun entry => entry.1.counted == a.1.counted) =
      (entries rolls).filter fun entry => entry.1.counted == a.1.counted := by
    refine filter_mergeSort hTrans hTotal fun c d hc hd => ?_
    rw [beq_iff_eq] at hc hd
    exact Extreme.ranks_iff.2 (Extreme.leads_of_eq (by rw [hc, hd]))
  have hFiltered := hPair.filter fun entry => entry.1.counted == a.1.counted
  rw [← ranked, hTies] at hFiltered
  have hBoth : [a, b].filter (fun entry => entry.1.counted == a.1.counted) =
      [a, b] := by
    simp [hSame]
  rw [hBoth] at hFiltered
  have hOrdered := (pairwise_entries rolls).sublist
    (hFiltered.trans List.filter_sublist)
  exact List.rel_of_pairwise_cons hOrdered (List.mem_singleton_self b)

/-! ## Sums -/

/-- The dice that are better than others can be told from them by a value. -/
theorem exists_pivot {better worse : List Int}
    (h : ∀ a ∈ better, ∀ b ∈ worse, b ≤ a) :
    ∃ t, (∀ a ∈ better, t ≤ a) ∧ ∀ b ∈ worse, b ≤ t := by
  induction better with
  | nil =>
      induction worse with
      | nil => exact ⟨0, nofun, nofun⟩
      | cons b worse ih =>
          obtain ⟨t, -, hWorse⟩ := ih nofun
          refine ⟨max b t, nofun, List.forall_mem_cons.2 ⟨le_max_left b t, ?_⟩⟩
          exact fun c hc => (hWorse c hc).trans (le_max_right b t)
  | cons a better ih =>
      obtain ⟨hFirst, hRest⟩ := List.forall_mem_cons.1 h
      obtain ⟨t, hBetter, hWorse⟩ := ih hRest
      refine ⟨min a t, List.forall_mem_cons.2 ⟨min_le_left a t, ?_⟩, ?_⟩
      · exact fun c hc => (min_le_right a t).trans (hBetter c hc)
      · exact fun b hb => le_min (hFirst b hb) (hWorse b hb)

theorem sum_map_sub (values : List Int) (t : Int) :
    (values.map fun v => v - t).sum = values.sum - values.length * t := by
  induction values with
  | nil => simp
  | cons v values ih =>
      rw [List.map_cons, List.sum_cons, List.sum_cons, ih, List.length_cons]
      rw [Nat.cast_succ, Int.add_mul, Int.one_mul]
      omega

/-- No choice of as many values has a greater sum than the best of them. -/
theorem sum_le_of_best {chosen better worse : List Int}
    (hChosen : chosen.Subperm (better ++ worse))
    (hLength : chosen.length = better.length)
    (hBest : ∀ a ∈ better, ∀ b ∈ worse, b ≤ a) : chosen.sum ≤ better.sum := by
  obtain ⟨t, hBetter, hWorse⟩ := exists_pivot hBest
  -- Above the pivot the best values have all there is to have.
  have hNone : (worse.map fun v => max (v - t) 0).sum = 0 := by
    refine List.sum_eq_zero fun x hx => ?_
    obtain ⟨v, hv, rfl⟩ := List.mem_map.1 hx
    have hBelow := hWorse v hv
    omega
  have hAll : (better.map fun v => max (v - t) 0) = better.map fun v => v - t := by
    refine List.map_congr_left fun v hv => ?_
    have hAbove := hBetter v hv
    omega
  have hNonneg : ∀ x ∈ (better ++ worse).map (fun v => max (v - t) 0), 0 ≤ x := by
    intro x hx
    obtain ⟨v, -, rfl⟩ := List.mem_map.1 hx
    exact le_max_right _ _
  have hSum : (chosen.map fun v => v - t).sum ≤ (better.map fun v => v - t).sum :=
    calc (chosen.map fun v => v - t).sum
        ≤ (chosen.map fun v => max (v - t) 0).sum :=
          List.sum_le_sum fun v _ => le_max_left _ _
      _ ≤ ((better ++ worse).map fun v => max (v - t) 0).sum := by
          obtain ⟨part, hPerm, hSublist⟩ := hChosen
          rw [← (hPerm.map fun v => max (v - t) 0).sum_eq]
          exact (hSublist.map fun v => max (v - t) 0).sum_le_sum hNonneg
      _ = (better.map fun v => v - t).sum := by
          rw [List.map_append, List.sum_append, hNone, hAll, add_zero]
  rw [sum_map_sub, sum_map_sub, hLength] at hSum
  omega

/-- The sum of what the dice count for, as an integer. -/
def worth (dice : List Die) : Int := (dice.map fun die => die.counted.toInt).sum

/-- No choice of as many dice lies further toward the extreme than the best of
them. -/
theorem leads_worth {chosen better worse : List Die}
    (hChosen : chosen.Subperm (better ++ worse))
    (hLength : chosen.length = better.length)
    (hBest : ∀ a ∈ better, ∀ b ∈ worse,
      extreme.Leads a.counted.toInt b.counted.toInt) :
    extreme.Leads (worth better) (worth chosen) := by
  obtain ⟨part, hPerm, hSublist⟩ := hChosen
  have hSubperm : ∀ f : Die → Int,
      (chosen.map f).Subperm (better.map f ++ worse.map f) := by
    intro f
    rw [← List.map_append]
    exact ⟨part.map f, hPerm.map f, hSublist.map f⟩
  cases extreme with
  | highest =>
      refine sum_le_of_best (hSubperm _) (by simpa using hLength) ?_
      simp only [List.forall_mem_map]
      exact hBest
  | lowest =>
      -- The negated values turn the scale round.
      have hNegated : ∀ dice : List Die,
          (dice.map fun die => -die.counted.toInt).sum = -worth dice := by
        intro dice
        rw [worth, List.sum_neg, List.map_map]
        rfl
      have hSum : (chosen.map fun die => -die.counted.toInt).sum ≤
          (better.map fun die => -die.counted.toInt).sum := by
        refine sum_le_of_best (hSubperm _) (by simpa using hLength) ?_
        simp only [List.forall_mem_map]
        exact fun a ha b hb => Int.neg_le_neg (hBest a ha b hb)
      rw [hNegated, hNegated] at hSum
      exact Int.le_of_neg_le_neg hSum

/-! ## Cutting a ranking in two -/

theorem getElem?_dropped {positions : List Nat} (i : Nat) :
    (dropped cause positions rolls)[i]? = rolls[i]?.map fun die =>
      if i ∈ positions then { die with droppedBy := some cause } else die := by
  simp [dropped, Option.map_map, Function.comp_def]

variable {left gone : List (Die × Nat)}

/-- No position is that of two entries. -/
theorem eq_of_snd_eq {a b : Die × Nat} (ha : a ∈ entries rolls)
    (hb : b ∈ entries rolls) (h : a.2 = b.2) : a = b := by
  have hDie : some a.1 = some b.1 := by
    rw [← (mem_entries.1 ha).1, ← (mem_entries.1 hb).1, h]
  exact Prod.ext (Option.some.inj hDie) h

/-- What is in the total afterwards are the dice that stay, and they stay as they
are. -/
theorem entries_dropped_perm (cause : Modifier)
    (h : (left ++ gone).Perm (entries rolls)) :
    (entries (dropped cause (gone.map Prod.snd) rolls)).Perm left := by
  have hNodup : (left ++ gone).Nodup := h.nodup_iff.2 (nodup_entries rolls)
  obtain ⟨hLeft, -, hDisjoint⟩ := List.nodup_append.1 hNodup
  refine (List.perm_ext_iff_of_nodup (nodup_entries _) hLeft).2 fun entry => ?_
  rw [mem_entries, getElem?_dropped]
  constructor
  · rintro ⟨hDie, hKept⟩
    obtain ⟨die, hOld, hNew⟩ := Option.map_eq_some_iff.1 hDie
    split at hNew
    · -- The die has been dropped just now.
      rw [← hNew] at hKept
      cases hKept
    · next hOut =>
      subst hNew
      have hEntry : entry ∈ left ++ gone := h.mem_iff.2 (mem_entries.2 ⟨hOld, hKept⟩)
      refine (List.mem_append.1 hEntry).resolve_right fun hGone => ?_
      exact hOut (List.mem_map_of_mem hGone)
  · intro hEntry
    have hMem := h.mem_iff.1 (List.mem_append_left gone hEntry)
    obtain ⟨hDie, hKept⟩ := mem_entries.1 hMem
    have hStays : entry.2 ∉ gone.map Prod.snd := by
      intro hOut
      obtain ⟨other, hOther, hSame⟩ := List.mem_map.1 hOut
      have hEq := eq_of_snd_eq (h.mem_iff.1 (List.mem_append_right left hOther))
        hMem hSame
      exact hDisjoint entry hEntry other hOther hEq.symm
    rw [hDie, Option.map_some, if_neg hStays]
    exact ⟨rfl, hKept⟩

theorem worth_perm {dice dice' : List Die} (h : dice.Perm dice') :
    worth dice = worth dice' :=
  (h.map _).sum_eq

/-- The die at this position is in the total before and not afterwards. -/
def Leaves (rolls rolls' : List Die) (i : Nat) (die : Die) : Prop :=
  rolls[i]? = some die ∧ die.isKept = true ∧
    ∃ die', rolls'[i]? = some die' ∧ die'.isKept = false

/-- The die at this position is in the total afterwards. -/
def Stays (rolls' : List Die) (i : Nat) (die : Die) : Prop :=
  rolls'[i]? = some die ∧ die.isKept = true

/-- What a selection makes of the dice on the table. It drops dice in the total,
changes nothing else and leaves `size` dice in the total. Those that stay lie
toward the `favoured` extreme and, where they count for the same as one that
leaves, in front of it or behind it as `inFront` says; and no other choice of
`size` dice in the total has a sum that lies further toward the extreme. -/
structure Chosen (cause : Modifier) (favoured : Extreme) (inFront : Bool)
    (size : Nat) (rolls rolls' : List Die) : Prop where
  each : List.Forall₂ (fun die die' => die' = die ∨
    die.isKept = true ∧ die' = { die with droppedBy := some cause }) rolls rolls'
  length_eq : (rolls'.filter Die.isKept).length = size
  best : ∀ i j out die, Leaves rolls rolls' i out → Stays rolls' j die →
    favoured.Leads die.counted.toInt out.counted.toInt ∧
      (die.counted = out.counted → if inFront then j < i else i < j)
  optimal : ∀ chosen : List Die, chosen.Sublist (rolls.filter Die.isKept) →
    chosen.length = size →
    favoured.Leads (worth (rolls'.filter Die.isKept)) (worth chosen)

/-- If every die that stays is better than every die that leaves, the choice is
the right one. -/
theorem Chosen.of_split {favoured : Extreme} {inFront : Bool}
    (h : (left ++ gone).Perm (entries rolls))
    (hBest : ∀ a ∈ left, ∀ b ∈ gone,
      favoured.Leads a.1.counted.toInt b.1.counted.toInt ∧
        (a.1.counted = b.1.counted → if inFront then a.2 < b.2 else b.2 < a.2)) :
    Chosen cause favoured inFront left.length rolls
      (dropped cause (gone.map Prod.snd) rolls) := by
  have hLeft := entries_dropped_perm cause h
  have hKept := hLeft.map Prod.fst
  rw [map_fst_entries] at hKept
  constructor
  · refine forall₂_dropped fun i hPosition die hDie => ?_
    obtain ⟨entry, hGone, rfl⟩ := List.mem_map.1 hPosition
    obtain ⟨hEntry, hIsKept⟩ :=
      mem_entries.1 (h.mem_iff.1 (List.mem_append_right left hGone))
    rw [hDie] at hEntry
    cases hEntry
    exact hIsKept
  · rw [hKept.length_eq, List.length_map]
  · rintro i j out die ⟨hOut, hOutKept, out', hOut', hDropped⟩ hStays
    have hDie : (die, j) ∈ left := hLeft.mem_iff.1 (mem_entries.2 hStays)
    have hEntry : (out, i) ∈ left ++ gone :=
      h.mem_iff.2 (mem_entries.2 ⟨hOut, hOutKept⟩)
    -- A die that stays would be in the total afterwards.
    have hGone : (out, i) ∈ gone := by
      refine (List.mem_append.1 hEntry).resolve_left fun hStill => ?_
      obtain ⟨hSame, -⟩ := mem_entries.1 (hLeft.mem_iff.2 hStill)
      rw [hOut'] at hSame
      cases hSame
      rw [hOutKept] at hDropped
      cases hDropped
    exact hBest _ hDie _ hGone
  · intro chosen hSublist hLength
    have hSubperm : chosen.Subperm (left.map Prod.fst ++ gone.map Prod.fst) := by
      rw [← List.map_append]
      rw [← map_fst_entries] at hSublist
      exact hSublist.subperm.trans (h.map Prod.fst).symm.subperm
    rw [worth_perm hKept]
    refine leads_worth hSubperm (by simpa using hLength) ?_
    simp only [List.forall_mem_map]
    exact fun a ha b hb => (hBest a ha b hb).1

end Selection

/-! ## Keeping and dropping -/

namespace Modifier

variable {σ : Type}

theorem apply_keep (extreme : Extreme) (n : UInt16) (set : Rolled)
    (roller : Roller σ) (table : Table σ) :
    (keep extreme n).apply set roller table =
      (.ok (⟨set.dice, dropped (keep extreme n)
        ((ranking extreme set.rolls).drop n.toNat) set.rolls⟩, none), table) := by
  rw [apply, keep_eq_ok]
  rfl

theorem apply_drop (extreme : Extreme) (n : UInt16) (set : Rolled)
    (roller : Roller σ) (table : Table σ) :
    (drop extreme n).apply set roller table =
      (.ok (⟨set.dice, dropped (drop extreme n)
        ((ranking extreme set.rolls).take n.toNat) set.rolls⟩, none), table) := by
  rw [apply, drop_eq_ok]
  rfl

/-- Of the dice in the total, keeping `n` of them leaves the `n` best, or all if
there are fewer, and dropping `n` of them leaves all but the `n` best. Of dice that
count for the same, those in front are better. Nothing is thrown, and a selection
never fails. -/
theorem selection_chooses (extreme : Extreme) (n : UInt16) (set : Rolled)
    (roller : Roller σ) (table : Table σ) :
    (∃ rolls, (keep extreme n).apply set roller table =
        (.ok ({ set with rolls }, none), table) ∧
      Chosen (keep extreme n) extreme true
        (min n.toNat (set.rolls.filter Die.isKept).length) set.rolls rolls) ∧
    ∃ rolls, (drop extreme n).apply set roller table =
        (.ok ({ set with rolls }, none), table) ∧
      Chosen (drop extreme n) extreme.opposite false
        ((set.rolls.filter Die.isKept).length -
          min n.toNat (set.rolls.filter Die.isKept).length) set.rolls rolls := by
  have hPerm := ranked_perm extreme set.rolls
  have hStrict := pairwise_ranked extreme set.rolls
  rw [← List.take_append_drop n.toNat (ranked extreme set.rolls)] at hPerm hStrict
  obtain ⟨-, -, hBeats⟩ := List.pairwise_append.1 hStrict
  rw [← length_ranked extreme]
  constructor
  · refine ⟨_, apply_keep extreme n set roller table, ?_⟩
    rw [ranking_eq, ← List.map_drop, ← List.length_take]
    exact .of_split hPerm hBeats
  · refine ⟨_, apply_drop extreme n set roller table, ?_⟩
    have hLength : (ranked extreme set.rolls).length -
        min n.toNat (ranked extreme set.rolls).length =
          ((ranked extreme set.rolls).drop n.toNat).length := by
      rw [List.length_drop]
      omega
    rw [ranking_eq, ← List.map_take, hLength]
    refine .of_split (List.perm_append_comm.trans hPerm) fun a ha b hb => ?_
    obtain ⟨hLeads, hTie⟩ := hBeats b hb a ha
    exact ⟨Extreme.leads_opposite.2 hLeads, fun hSame => hTie hSame.symm⟩

end Modifier

end DiceFormula
