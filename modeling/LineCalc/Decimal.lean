import LineCalc.Text

/-!
Decimal fractions. They are written with the point in its place, or with an exponent if that would
take too many zeros.
-/
namespace LineCalc

/-- The number `coefficient * 10 ^ exponent`. -/
structure Decimal where
  coefficient : Nat
  exponent : Int
  deriving DecidableEq

/-- From which exponent of the leading digit on and below which one the point stands in its place,
    and how many digits an exponent has at least. -/
structure Decimal.Layout where
  plainFrom : Int
  plainBelow : Int
  exponentWidth : Nat

namespace Decimal

def fillLeft (width : Nat) (digits : Text) : Text := List.replicate (width - digits.length) '0' ++ digits

def fillRight (width : Nat) (digits : Text) : Text := digits ++ List.replicate (width - digits.length) '0'

/-- Digits with the point behind `place` of them, at least one on either side of it. -/
def writePlain (digits : Text) (place : Int) : Text :=
  let whole := fillRight place.toNat (digits.take place.toNat)
  let fraction := List.replicate (-place).toNat '0' ++ digits.drop place.toNat
  fillLeft 1 whole ++ '.' :: fillRight 1 fraction

/-- Digits with the point behind the first one, and the exponent of that one. -/
def writeScaled (width : Nat) (digits : Text) (leading : Int) : Text :=
  let fraction := digits.drop 1
  digits.take 1 ++ (if fraction.isEmpty then [] else '.' :: fraction) ++
    'e' :: (if leading < 0 then '-' else '+') :: fillLeft width (Nat.toDigits 10 leading.natAbs)

def write (layout : Layout) (decimal : Decimal) : Text :=
  let all := Nat.toDigits 10 decimal.coefficient
  let digits := Text.stripRight (· = '0') all
  let place := all.length + decimal.exponent
  if layout.plainFrom < place && place ≤ layout.plainBelow then writePlain digits place
  else writeScaled layout.exponentWidth digits (place - 1)

end Decimal
end LineCalc
