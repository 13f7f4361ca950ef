import LineCalc.Decimal

/-!
Numbers of double precision, in quanta of `2 ^ -1074`, and the rounding of decimals to the nearest
of them (`Double.ofDecimal`).
-/
namespace LineCalc

inductive Double
  | nan
  | infinite (negative : Bool)
  | finite (negative : Bool) (quanta : Nat)
  deriving DecidableEq

/-- Rounded to the nearest whole number, at a tie to the even one. -/
def roundedQuotient (dividend divisor : Nat) : Nat :=
  let below := dividend / divisor
  let twice := 2 * (dividend % divisor)
  if twice < divisor then below
  else if divisor < twice then below + 1
  else below + below % 2

namespace Double

def quantaOfOne : Nat := Nat.pow 2 1074

/-- A finite number has fewer quanta than this. -/
def quantaLimit : Nat := Nat.pow 2 2098

/-- The digits that a number keeps, in base two. -/
def precision : Nat := 53

/-- A quotient with zeros behind the digits of its precision. -/
def roundedQuanta (dividend divisor : Nat) : Nat :=
  let unit := Nat.pow 2 ((dividend / divisor).log2 + 1 - precision)
  roundedQuotient dividend (divisor * unit) * unit

def ofQuanta (negative : Bool) (quanta : Nat) : Double :=
  if quanta < quantaLimit then finite negative quanta else infinite negative

/-- A decimal that is not zero is too large for a finite number. -/
def tooLarge (decimal : Decimal) : Bool := 310 ≤ decimal.exponent

/-- A decimal is less than half a quantum, seen from the length of its coefficient. -/
def tooSmall (decimal : Decimal) : Bool := decimal.coefficient.log2 + 991 ≤ 3 * -decimal.exponent

/-- What is too large or too small by far is told apart first, so that no power is taken of a large
    exponent. -/
def ofDecimal (negative : Bool) (decimal : Decimal) : Double :=
  if decimal.coefficient = 0 then finite negative 0
  else if tooLarge decimal then infinite negative
  else if tooSmall decimal then finite negative 0
  else
    ofQuanta negative
      (roundedQuanta (decimal.coefficient * Nat.pow 10 decimal.exponent.toNat * quantaOfOne)
        (Nat.pow 10 (-decimal.exponent).toNat))

def signed (negative : Bool) (n : Nat) : Int := if negative then -n else n

end Double
end LineCalc
