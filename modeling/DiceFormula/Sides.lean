import DiceFormula.Value

/-!
# Sides of a die

A die is numbered from 1 up to some number, or it is one of the two special
kinds: a fate die, with the faces -1, 0 and 1, and a percentile die, with the
faces 1 to 100. The faces of every kind form an interval.

A die numbered up to 0 can be described but has no face at all: its interval
is empty.

## Main results

* `Sides.mem_faces` — the listed faces are exactly the values of the interval.
* `Sides.numbered_bounds`, `Sides.fate_bounds`, `Sides.percentile_bounds` — the
  ends of the interval.
* `Sides.isSingleFaced_iff` — which dice always show the same.
-/

namespace DiceFormula

/-- What is on the sides of a die. -/
inductive Sides where
  | numbered (n : UInt16)
  | fate
  | percentile
  deriving DecidableEq

namespace Sides

/-- The lowest face. -/
def minFace : Sides → Value
  | numbered _ => 1
  | fate => -1
  | percentile => 1

/-- The highest face. -/
def maxFace : Sides → Value
  | numbered n => Int32.ofNat n.toNat
  | fate => 1
  | percentile => 100

/-- Whether the die cannot show two different faces. -/
def isSingleFaced (sides : Sides) : Bool := sides.maxFace ≤ sides.minFace

/-- All faces, from the lowest to the highest. -/
def faces (sides : Sides) : List Value :=
  (List.range (sides.maxFace.toInt - sides.minFace.toInt + 1).toNat).map
    fun (k : Nat) => Int32.ofInt (sides.minFace.toInt + k)

/-- The text of the sides after the letter `d`. -/
def text : Sides → String
  | numbered n => n.toNat.repr
  | fate => "F"
  | percentile => "%"

/-- The highest face of a numbered die denotes its number of sides. -/
theorem toInt_maxFace_numbered (n : UInt16) :
    (numbered n).maxFace.toInt = n.toNat := by
  have h := n.toNat_lt
  exact Int32.toInt_ofNat_of_lt (by omega)

theorem numbered_bounds (n : UInt16) :
    (numbered n).minFace.toInt = 1 ∧ (numbered n).maxFace.toInt = n.toNat :=
  ⟨rfl, toInt_maxFace_numbered n⟩

theorem fate_bounds : fate.minFace.toInt = -1 ∧ fate.maxFace.toInt = 1 :=
  ⟨rfl, rfl⟩

theorem percentile_bounds :
    percentile.minFace.toInt = 1 ∧ percentile.maxFace.toInt = 100 :=
  ⟨rfl, rfl⟩

/-- The listed faces are exactly the values of the interval. -/
theorem mem_faces {sides : Sides} {v : Value} :
    v ∈ sides.faces ↔ sides.minFace ≤ v ∧ v ≤ sides.maxFace := by
  simp only [faces, List.mem_map, List.mem_range, Int32.le_iff_toInt_le]
  constructor
  · rintro ⟨k, hk, rfl⟩
    have hMin := Int32.le_toInt sides.minFace
    have hMax := Int32.toInt_lt sides.maxFace
    rw [Int32.toInt_ofInt_of_le (by omega) (by omega)]
    omega
  · rintro ⟨hMin, hMax⟩
    refine ⟨(v.toInt - sides.minFace.toInt).toNat, by omega, ?_⟩
    rw [show sides.minFace.toInt + ((v.toInt - sides.minFace.toInt).toNat : Int)
      = v.toInt by omega, Int32.ofInt_toInt]

/-- A die is single-faced if no two of its faces differ. -/
theorem isSingleFaced_iff {sides : Sides} :
    sides.isSingleFaced = true ↔ ∀ v ∈ sides.faces, ∀ w ∈ sides.faces, v = w := by
  rw [isSingleFaced, decide_eq_true_iff]
  simp only [mem_faces]
  constructor
  · intro hSingle v hv w hw
    have hLow := Int32.le_trans hv.2 (Int32.le_trans hSingle hw.1)
    have hHigh := Int32.le_trans hw.2 (Int32.le_trans hSingle hv.1)
    exact Int32.le_antisymm hLow hHigh
  · intro hSame
    rcases Int32.le_total sides.maxFace sides.minFace with hSingle | hFaces
    · exact hSingle
    · have hEnds := hSame _ ⟨Int32.le_refl _, hFaces⟩ _ ⟨hFaces, Int32.le_refl _⟩
      exact Int32.le_of_eq hEnds.symm

end Sides

end DiceFormula
