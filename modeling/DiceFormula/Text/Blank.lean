/-!
# Blanks

The characters that may surround a formula, its operators and its operands:
the Unicode characters with the `White_Space` property.

## Main results

* `isBlank_iff` — the blanks one by one.
* `trim_eq_self` — trimming keeps a text that neither starts nor ends with a
  blank.
-/

namespace DiceFormula.Text

/-- What is said of the characters of a list is decided along the list, and not
by going through all characters there are. -/
instance decidableForallMem (s : List Char) (p : Char → Prop)
    [DecidablePred p] : Decidable (∀ c ∈ s, p c) :=
  List.decidableBAll p s

/-- The closed intervals of code points that are blanks. -/
def blankIntervals : List (Nat × Nat) :=
  [(0x0009, 0x000D), (0x0020, 0x0020), (0x0085, 0x0085), (0x00A0, 0x00A0),
   (0x1680, 0x1680), (0x2000, 0x200A), (0x2028, 0x2029), (0x202F, 0x202F),
   (0x205F, 0x205F), (0x3000, 0x3000)]

/-- Whether a character is a blank. -/
def isBlank (c : Char) : Bool :=
  blankIntervals.any fun interval =>
    interval.1 ≤ c.toNat && c.toNat ≤ interval.2

/-- The blanks one by one. -/
theorem isBlank_iff {c : Char} :
    isBlank c = true ↔ c ∈ ['\t', '\n', '\x0B', '\x0C', '\r', ' ', '\u0085', '\u00A0',
      '\u1680', '\u2000', '\u2001', '\u2002', '\u2003', '\u2004', '\u2005', '\u2006',
      '\u2007', '\u2008', '\u2009', '\u200A', '\u2028', '\u2029', '\u202F', '\u205F',
      '\u3000'] := by
  have hCode : ∀ d : Char, c = d ↔ c.toNat = d.toNat :=
    fun d => ⟨congrArg Char.toNat, fun h => Char.toNat_inj.1 h⟩
  simp only [List.mem_cons, List.not_mem_nil, or_false, hCode]
  simp [isBlank, blankIntervals]
  omega

/-- A text without the blanks around it. -/
def trim (s : List Char) : List Char :=
  ((s.dropWhile isBlank).reverse.dropWhile isBlank).reverse

/-- A string without the blanks around it. -/
def trimmed (text : String) : String := String.ofList (trim text.toList)

theorem trim_eq_self {s : List Char} (hHead : ∀ c ∈ s.head?, isBlank c = false)
    (hLast : ∀ c ∈ s.getLast?, isBlank c = false) : trim s = s := by
  have keeps : ∀ t : List Char, (∀ c ∈ t.head?, isBlank c = false) →
      t.dropWhile isBlank = t := by
    intro t ht
    cases t with
    | nil => rfl
    | cons c t => simp [ht c (by simp)]
  rw [trim, keeps s hHead, keeps s.reverse (by simpa using hLast),
    List.reverse_reverse]

end DiceFormula.Text
