import LineCalc.Double.Shortest
import LineCalc.Numeral

/-!
The numbers of the JSON notation, read (`Number.spelled?`) and written (`Number.writeReal`).
-/
namespace LineCalc.Json.Number

/-- An integer has neither a fraction nor an exponent. -/
structure Spelling where
  negative : Bool
  whole : Text
  fraction : Option Text
  exponent : Option Int
  deriving DecidableEq

def spanDigits (text : Text) : Text × Text := (text.takeWhile Char.isDigit, text.dropWhile Char.isDigit)

def spanSign : Text → Bool × Text
  | '-' :: rest => (true, rest)
  | '+' :: rest => (false, rest)
  | text => (false, text)

/-- No needless zero stands in front. -/
def spanWhole? : Text → Option (Text × Text)
  | '0' :: rest => some (['0'], rest)
  | c :: rest => if c.isDigit then some (spanDigits (c :: rest)) else none
  | [] => none

def spanFraction (text : Text) : Option Text × Text :=
  match text with
  | '.' :: rest =>
    let (digits, after) := spanDigits rest
    if digits.isEmpty then (none, text) else (some digits, after)
  | _ => (none, text)

def spanExponent (text : Text) : Option Int × Text :=
  match text with
  | [] => (none, text)
  | mark :: rest =>
    let (negative, behind) := spanSign rest
    let (digits, after) := spanDigits behind
    if (mark = 'e' || mark = 'E') && !digits.isEmpty then
      (some (Double.signed negative (Numeral.valueOf digits)), after)
    else (none, text)

/-- The number at the start of a text, and what stands behind it. -/
def spelled? (text : Text) : Option (Spelling × Text) := do
  let (negative, unsigned) := match text with
    | '-' :: rest => (true, rest)
    | _ => (false, text)
  let (whole, behind) ← spanWhole? unsigned
  let (fraction, behind) := spanFraction behind
  let (exponent, after) := spanExponent behind
  return (⟨negative, whole, fraction, exponent⟩, after)

def Spelling.isInteger (spelling : Spelling) : Bool := spelling.fraction.isNone && spelling.exponent.isNone

def Spelling.integer (spelling : Spelling) : Int := Double.signed spelling.negative (Numeral.valueOf spelling.whole)

/-- The decimal that is spelled, without its sign. -/
def Spelling.decimal (spelling : Spelling) : Decimal :=
  let fraction := spelling.fraction.getD []
  ⟨Numeral.valueOf (spelling.whole ++ fraction), spelling.exponent.getD 0 - fraction.length⟩

def Spelling.real (spelling : Spelling) : Double := Double.ofDecimal spelling.negative spelling.decimal

/-- The word for a number that is none. -/
def nanWord : Text := "NaN".toList

def infinityWord : Text := "Infinity".toList

/-- The point stands in its place from 0.0001 on and below ten to the sixteenth. -/
def layout : Decimal.Layout := ⟨-4, 16, 2⟩

def withSign (negative : Bool) (text : Text) : Text := if negative then '-' :: text else text

/-- The shortest text that is read as a number. -/
def writeReal : Double → Text
  | .nan => nanWord
  | .infinite negative => withSign negative infinityWord
  | .finite negative quanta => withSign negative ((Double.shortest quanta).write layout)

end LineCalc.Json.Number
