import LineCalc.Double

/-!
The shortest decimals of numbers of double precision: of all decimals that stand for a number
those with the fewest digits, and of these the nearest.
-/
namespace LineCalc

/-- On a grid that is coarser by a power of ten, the nearer one first, at a tie the even one. -/
def Decimal.neighbours (decimal : Decimal) (coarser : Nat) : List Decimal :=
  let nearer := roundedQuotient decimal.coefficient (Nat.pow 10 coarser)
  let farther := 2 * (decimal.coefficient / Nat.pow 10 coarser) + 1 - nearer
  [⟨nearer, decimal.exponent + coarser⟩, ⟨farther, decimal.exponent + coarser⟩]

/-- The first neighbour of a decimal that is accepted, on the coarsest grid that has one. The
    decimal itself ends the search. -/
def Decimal.coarsest (accepts : Decimal → Bool) (decimal : Decimal) : Nat → Decimal
  | 0 => decimal
  | coarser + 1 =>
    match (decimal.neighbours (coarser + 1)).find? accepts with
    | some found => found
    | none => coarsest accepts decimal coarser

namespace Double

/-- The decimal that is exactly so many quanta. -/
def exactDecimal (quanta : Nat) : Decimal := ⟨quanta * Nat.pow 5 1074, -1074⟩

def shortest (quanta : Nat) : Decimal :=
  if quanta = 0 then ⟨0, 0⟩
  else
    let exact := exactDecimal quanta
    exact.coarsest (fun decimal => ofDecimal false decimal = finite false quanta)
      ((Nat.toDigits 10 exact.coefficient).length - 1)

end Double
end LineCalc
