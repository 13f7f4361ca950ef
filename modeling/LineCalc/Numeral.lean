import LineCalc.Text

/-!
Decimal numerals of any length. A long one is converted in halves in both directions, so that the
work grows less than with the square of its length; the halves of a number are cut by an estimate
of its digits from its bits (`Numeral.halfWidth`). Line numbers and columns are printed in the
same way: a machine would not write them with more than `digitLimit` digits, but those of a text
have far fewer, and only a host program can make up others (`Numeral.isWritable`).
-/
namespace LineCalc.Numeral

/-- Up to this many digits are converted one by one. -/
def plainDigits : Nat := 1000

def plainLimit : Nat := Nat.pow 10 plainDigits

def valueOf (digits : Text) : Nat :=
  if digits.length ≤ plainDigits then Nat.ofDigitChars 10 digits 0
  else
    let half := digits.length / 2
    let cut := digits.length - half
    valueOf (digits.take cut) * Nat.pow 10 half + valueOf (digits.drop cut)
termination_by digits.length
decreasing_by all_goals simp only [plainDigits, List.length_take, List.length_drop] at *; omega

def isDigits (text : Text) : Bool := !text.isEmpty && text.all Char.isDigit

/-- At most a minus sign, and at least one ASCII digit. -/
def parse? : Text → Option Int
  | '-' :: digits => if isDigits digits then some (-(valueOf digits : Int)) else none
  | digits => if isDigits digits then some (valueOf digits : Int) else none

/-- Half of the digits of a number, estimated from the count of its bits. -/
def halfWidth (n : Nat) : Nat := ((n.log2 + 1) * 30103 / 100000 + 1) / 2

theorem plainLimit_large : 512 ≤ plainLimit := by
  have grows : ∀ digits, 3 ≤ digits → Nat.pow 10 3 ≤ Nat.pow 10 digits :=
    fun _ more => Nat.pow_le_pow_right (by decide) more
  unfold plainLimit
  exact Nat.le_trans (by decide) (grows plainDigits (by decide))

theorem halfWidth_pos {n : Nat} (large : plainLimit ≤ n) : 1 ≤ halfWidth n := by
  have bits : 9 ≤ n.log2 := (Nat.le_log2 (by have := plainLimit_large; omega)).2 (by have := plainLimit_large; omega)
  unfold halfWidth
  omega

theorem pow_halfWidth_le {n : Nat} (large : plainLimit ≤ n) : Nat.pow 10 (halfWidth n) ≤ n := by
  have positive : n ≠ 0 := by have := plainLimit_large; omega
  have bits : 9 ≤ n.log2 := (Nat.le_log2 positive).2 (by have := plainLimit_large; omega)
  calc Nat.pow 10 (halfWidth n) ≤ Nat.pow 16 (halfWidth n) := Nat.pow_le_pow_left (by decide) _
    _ = Nat.pow 2 (4 * halfWidth n) := (Nat.pow_mul 2 4 _).symm
    _ ≤ Nat.pow 2 n.log2 := Nat.pow_le_pow_right (by decide) (by unfold halfWidth; omega)
    _ ≤ n := Nat.log2_self_le positive

theorem high_lt {n : Nat} (large : plainLimit ≤ n) : n / Nat.pow 10 (halfWidth n) < n :=
  Nat.div_lt_self (by have := plainLimit_large; omega)
    (Nat.one_lt_pow (by have := halfWidth_pos large; omega) (by decide))

theorem low_lt {n : Nat} (large : plainLimit ≤ n) : n % Nat.pow 10 (halfWidth n) < n :=
  Nat.lt_of_lt_of_le (Nat.mod_lt _ (Nat.pow_pos (by decide))) (pow_halfWidth_le large)

/-- Digits filled with zeros on the left to a width. -/
def padded (n width : Nat) : Text :=
  if n < plainLimit then
    let digits := Nat.toDigits 10 n
    List.replicate (width - digits.length) '0' ++ digits
  else
    let half := halfWidth n
    padded (n / Nat.pow 10 half) (width - half) ++ padded (n % Nat.pow 10 half) half
termination_by n
decreasing_by
  · exact high_lt (Nat.not_lt.1 ‹_›)
  · exact low_lt (Nat.not_lt.1 ‹_›)

/-- The canonical numeral. -/
def print : Int → Text
  | .ofNat n => padded n 0
  | .negSucc n => '-' :: padded (n + 1) 0

/-- The most digits that a machine reads or writes where it does not do so in halves. -/
def digitLimit : Nat := 4300

def isWritable (n : Int) : Bool := n.natAbs < Nat.pow 10 digitLimit

end LineCalc.Numeral
