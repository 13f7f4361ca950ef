/-!
Texts, and the two readings of "blank" that the language uses: between the words of a line
(`isGap`) and around a whole line (`isBlank`).
-/
namespace LineCalc

/-- One character for each Unicode scalar value. -/
abbrev Text := List Char

namespace Text

def isGap (c : Char) : Bool := c = ' ' || c = '\t'

/-- The runs of Unicode white space, first and last code points. -/
def blankRuns : List (Nat × Nat) :=
  [(0x09, 0x0d), (0x1c, 0x20), (0x85, 0x85), (0xa0, 0xa0), (0x1680, 0x1680),
    (0x2000, 0x200a), (0x2028, 0x2029), (0x202f, 0x202f), (0x205f, 0x205f), (0x3000, 0x3000)]

def isBlank (c : Char) : Bool := blankRuns.any fun (first, last) => first ≤ c.toNat && c.toNat ≤ last

def stripLeft (class_ : Char → Bool) (text : Text) : Text := text.dropWhile class_

def stripRight (class_ : Char → Bool) (text : Text) : Text := (text.reverse.dropWhile class_).reverse

def strip (class_ : Char → Bool) (text : Text) : Text := stripRight class_ (stripLeft class_ text)

/-- A negative index counts from the end, and one outside of the text means its nearer end. -/
def fromIndex (index : Int) (text : Text) : Text :=
  if 0 ≤ index then text.drop index.toNat else text.drop (text.length + index).toNat

def joined (between : Text) (parts : List Text) : Text := between.intercalate parts

theorem fromIndex_natCast (n : Nat) (text : Text) : fromIndex n text = text.drop n := by
  simp [fromIndex]

end Text
end LineCalc
