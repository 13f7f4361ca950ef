import Mathlib.Algebra.GroupWithZero.Nat
import LineCalc.Proofs.Numerals

/-!
Numerals as sums over their places, wherever the halves are cut in which they are read
(`Numeral.read_by_places`).
-/
namespace LineCalc.Numeral

/-- The sum of the digits, each times the power of ten of its place from the right. -/
def placeSum (digits : Text) : Nat :=
  (digits.reverse.zipIdx.map fun (digit, place) => (digit.toNat - '0'.toNat) * 10 ^ place).sum

def signedText (negative : Bool) (digits : Text) : Text := if negative then '-' :: digits else digits

/-- The sum of the places with the sign of the numeral. -/
def signedSum (negative : Bool) (digits : Text) : Int := if negative then -(placeSum digits : Int) else placeSum digits

/-! ## Places from the right -/

theorem placeSum_cons (digit : Char) (digits : Text) :
    placeSum (digit :: digits) = (digit.toNat - '0'.toNat) * 10 ^ digits.length + placeSum digits := by
  simp only [placeSum, List.reverse_cons, List.zipIdx_append, List.map_append, List.sum_append_nat, List.length_reverse]
  simp [Nat.add_comm]

theorem ofDigitChars_eq_placeSum (digits : Text) : Nat.ofDigitChars 10 digits 0 = placeSum digits := by
  induction digits with
  | nil => rfl
  | cons digit digits ih =>
    rw [placeSum_cons, Nat.ofDigitChars_cons, Nat.ofDigitChars_eq_ofDigitChars_zero, ih, Nat.mul_zero, Nat.zero_add,
      Nat.mul_comm]

/-! ## The sign in front -/

theorem unsigned_signedText {digits : Text} (written : IsDigits digits) (negative : Bool) :
    unsigned (signedText negative digits) = digits := by
  cases negative with
  | true => rfl
  | false => exact unsigned_of_head_ne written.head_ne_minus

theorem integerOf_signedText {digits : Text} (written : IsDigits digits) (negative : Bool) :
    integerOf (signedText negative digits) = signedSum negative digits := by
  rw [integerOf, unsigned_signedText written, ofDigitChars_eq_placeSum]
  cases negative with
  | true => rfl
  | false => exact if_neg written.head_ne_minus

theorem exists_signedText (text : Text) : ∃ negative, text = signedText negative (unsigned text) := by
  unfold unsigned
  split
  · exact ⟨true, rfl⟩
  · exact ⟨false, rfl⟩

theorem isNumeral_iff_signedText (text : Text) :
    IsNumeral text ↔ ∃ negative digits, IsDigits digits ∧ text = signedText negative digits := by
  constructor
  · intro numeral
    obtain ⟨negative, parts⟩ := exists_signedText text
    exact ⟨negative, unsigned text, numeral, parts⟩
  · rintro ⟨negative, digits, written, rfl⟩
    rw [IsNumeral, unsigned_signedText written]
    exact written

/-- A text is read exactly if it is one ASCII digit or more with at most a minus sign in front, and
    then as the sum of its places with that sign, however long it is. Any other text is refused, and
    the error carries it unchanged. -/
theorem read_by_places (text : Text) :
    (∀ n, read text = .ok n ↔
      ∃ negative digits, IsDigits digits ∧ text = signedText negative digits ∧ n = signedSum negative digits) ∧
    ∀ error, read text = .error error ↔
      (¬ ∃ negative digits, IsDigits digits ∧ text = signedText negative digits) ∧ error = .badNumeral text := by
  constructor
  · intro n
    rw [read_eq_ok_iff, isNumeral_iff_signedText]
    constructor
    · rintro ⟨⟨negative, digits, written, rfl⟩, rfl⟩
      exact ⟨negative, digits, written, rfl, integerOf_signedText written negative⟩
    · rintro ⟨negative, digits, written, rfl, rfl⟩
      exact ⟨⟨negative, digits, written, rfl⟩, (integerOf_signedText written negative).symm⟩
  · intro error
    rw [read_eq_error_iff, isNumeral_iff_signedText]

example : placeSum "0405".toList = 405 ∧ signedText true "0405".toList = "-0405".toList := by decide

end LineCalc.Numeral
