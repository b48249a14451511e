import DiceFormula.Text.CaseTable

/-!
# Lowercasing

A text is lowercased letter by letter with the Unicode mapping. Two letters
need more than a table: the capital dotted I becomes an `i` followed by a dot
above, and the capital sigma becomes the final small sigma where a word ends
with it, that is where a letter stands before it and none after it. Accents
and the like are passed over when looking for either letter.
-/

namespace DiceFormula.Text

open CaseTable

/-- The lowercase form of a character that stands alone; a character without
one is its own. -/
def lowercaseChar (c : Char) : Char :=
  match lowercaseShifts.find? (·.covers c.toNat) with
  | some shift => Char.ofNat (c.toNat + shift.offset).toNat
  | none => c

/-- Whether the first character that is not transparent is a letter with
case. -/
def startsCased (s : List Char) : Bool :=
  match s.dropWhile fun c => inIntervals transparentIntervals c.toNat with
  | c :: _ => inIntervals casedIntervals c.toNat
  | [] => false

/-- The lowercase form of `c` between the characters `before` it, the nearest
first, and those `after` it. -/
def lowercaseBetween (before : List Char) (c : Char) (after : List Char) :
    List Char :=
  if c = '\u03A3' then
    if startsCased before && !startsCased after then ['\u03C2'] else ['\u03C3']
  else if c = '\u0130' then ['i', '\u0307']
  else [lowercaseChar c]

/-- The lowercase form of what follows `before`. -/
def lowercaseAfter (before : List Char) : List Char → List Char
  | [] => []
  | c :: rest =>
    lowercaseBetween before c rest ++ lowercaseAfter (c :: before) rest

/-- The lowercase form of a text. -/
def lowercase (s : List Char) : List Char := lowercaseAfter [] s

end DiceFormula.Text
