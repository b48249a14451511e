import DiceFormula.Rolled

/-!
# Selections: keeping and dropping dice

A selection ranks the dice that are still in the total by what they count for,
starting from the highest or the lowest; dice that count for the same keep
their order. It then drops the first dice of the ranking, or all but those.
The dice themselves stay where they are.

## Main results

* `flags_getD` — the flags raised are those at the given positions.
-/

namespace DiceFormula

/-- Whether a die that counts for `a` may be ranked before one that counts for
`b`. -/
def Extreme.ranks : Extreme → (a b : Value) → Bool
  | highest, a, b => b ≤ a
  | lowest, a, b => a ≤ b

namespace Selection

/-- The positions of the dice in the total, in the order of their rank. -/
def ranking (extreme : Extreme) (rolls : List Die) : List Nat :=
  ((rolls.zipIdx.filter fun entry => entry.1.isKept).mergeSort
    fun a b => extreme.ranks a.1.counted b.1.counted).map Prod.snd

/-- An array of `n` flags, of which those at the given positions are
raised. -/
def flags (n : Nat) (positions : List Nat) : Array Bool :=
  positions.foldl (fun raised i => raised.setIfInBounds i true)
    (Array.replicate n false)

/-- Drops the dice at the given positions. -/
def dropAt (cause : Modifier) (positions : List Nat) (rolls : List Die) :
    Except Halt (List Die) :=
  let raised := flags rolls.length positions
  rolls.zipIdx.mapM fun (die, i) =>
    if raised.getD i false then die.drop cause else .ok die

/-- Drops all but the first `n` dice of the ranking. -/
def keep (cause : Modifier) (extreme : Extreme) (n : UInt16)
    (rolls : List Die) : Except Halt (List Die) :=
  dropAt cause ((ranking extreme rolls).drop n.toNat) rolls

/-- Drops the first `n` dice of the ranking. -/
def drop (cause : Modifier) (extreme : Extreme) (n : UInt16)
    (rolls : List Die) : Except Halt (List Die) :=
  dropAt cause ((ranking extreme rolls).take n.toNat) rolls

theorem flags_getD (n : Nat) (positions : List Nat) (i : Nat) :
    (flags n positions).getD i false = decide (i < n ∧ i ∈ positions) := by
  have h : ∀ raised : Array Bool,
      (positions.foldl (fun raised i => raised.setIfInBounds i true)
          raised).getD i false =
        (raised.getD i false || decide (i < raised.size ∧ i ∈ positions)) := by
    induction positions with
    | nil => simp
    | cons p positions ih =>
      intro raised
      rw [List.foldl_cons, ih]
      simp only [Array.getD_eq_getD_getElem?, Array.getElem?_setIfInBounds,
        Array.size_setIfInBounds, List.mem_cons]
      by_cases hp : p = i
      · subst hp
        by_cases hn : p < raised.size <;> simp [hn]
      · have hp' : ¬ i = p := fun h => hp h.symm
        simp [hp, hp']
  rw [flags, h]
  by_cases hi : i < n <;> simp [hi]

end Selection

end DiceFormula
