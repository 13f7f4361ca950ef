import LineCalc.Arithmetic
import LineCalc.Decimal

/-!
Numerals of any length. A numeral that is read in halves stands for the number that its digits
make one by one (`Numeral.valueOf_eq`), and a number that is printed in halves has its digits in
one piece (`Numeral.padded_eq`).
-/
namespace LineCalc.Numeral
open Decimal

/-- At least one digit and nothing else. -/
def IsDigits (text : Text) : Prop := text ≠ [] ∧ ∀ c ∈ text, c.isDigit = true

/-- The text after a minus sign, or the whole text when it begins with none. -/
def unsigned : Text → Text
  | '-' :: digits => digits
  | digits => digits

/-- An optional minus sign, then digits. -/
def IsNumeral (text : Text) : Prop := IsDigits (unsigned text)

/-- The integer of a numeral: its digits in the scale of ten, with its sign. -/
def integerOf (text : Text) : Int :=
  if text.head? = some '-' then -(Nat.ofDigitChars 10 (unsigned text) 0 : Int)
  else Nat.ofDigitChars 10 (unsigned text) 0

/-- Without the zeros in front of the others. -/
def significant (digits : Text) : Text := digits.dropWhile (· = '0')

/-- A numeral without needless zeros, and with its sign only when it is not zero. -/
def canonicalForm (text : Text) : Text :=
  let digits := significant (unsigned text)
  if digits = [] then ['0'] else if text.head? = some '-' then '-' :: digits else digits

/-- A single zero, or an optional minus sign and digits that do not begin with a zero. -/
def IsCanonical (text : Text) : Prop :=
  text = ['0'] ∨ IsNumeral text ∧ (unsigned text).head? ≠ some '0'

/-- The digits of an integer after the sign of a negative one. -/
def decimal (n : Int) : Text :=
  if n < 0 then '-' :: Nat.toDigits 10 n.natAbs else Nat.toDigits 10 n.natAbs

instance (text : Text) : Decidable (IsDigits text) := inferInstanceAs (Decidable (_ ∧ _))

instance (text : Text) : Decidable (IsNumeral text) := inferInstanceAs (Decidable (IsDigits _))

/-! ## Digits and their numbers -/

theorem digit_bounds {c : Char} (digit : c.isDigit = true) : 48 ≤ c.toNat ∧ c.toNat ≤ 57 :=
  Char.isDigit_iff_toNat.mp digit

theorem toDigits_digit {c : Char} (digit : c.isDigit = true) : Nat.toDigits 10 (c.toNat - 48) = [c] := by
  obtain ⟨low, high⟩ := digit_bounds digit
  have small : c.toNat - 48 < 10 := by omega
  rw [Nat.toDigits_of_lt_base small]
  have same : (c.toNat - 48).digitChar.toNat = c.toNat := by
    rw [Nat.toNat_digitChar_of_lt_ten small]
    omega
  rw [Char.toNat_inj.mp same]

theorem toDigits_append {digits : Text} (all : ∀ c ∈ digits, c.isDigit = true) {value : Nat} (positive : 0 < value) :
    Nat.toDigits 10 value ++ digits = Nat.toDigits 10 (Nat.ofDigitChars 10 digits value) := by
  induction digits generalizing value with
  | nil => simp
  | cons c rest ih =>
    obtain ⟨low, high⟩ := digit_bounds (all c (by simp))
    have one : Nat.toDigits 10 value ++ [c] = Nat.toDigits 10 (10 * value + (c.toNat - 48)) := by
      rw [← toDigits_digit (all c (by simp))]
      exact Nat.toDigits_append_toDigits (by decide) positive (by omega)
    calc Nat.toDigits 10 value ++ c :: rest = (Nat.toDigits 10 value ++ [c]) ++ rest := by simp
      _ = Nat.toDigits 10 (10 * value + (c.toNat - 48)) ++ rest := by rw [one]
      _ = Nat.toDigits 10 (Nat.ofDigitChars 10 rest (10 * value + (c.toNat - 48))) :=
        ih (fun d member => all d (by simp [member])) (by omega)
      _ = Nat.toDigits 10 (Nat.ofDigitChars 10 (c :: rest) value) := by rw [Nat.ofDigitChars_cons]; rfl

/-- Digits that begin with no zero are the digits of their number. -/
theorem toDigits_ofDigitChars {digits : Text} (written : IsDigits digits) (leading : digits.head? ≠ some '0') :
    Nat.toDigits 10 (Nat.ofDigitChars 10 digits 0) = digits := by
  obtain ⟨nonempty, all⟩ := written
  cases digits with
  | nil => contradiction
  | cons c rest =>
    have digit := all c (by simp)
    obtain ⟨low, high⟩ := digit_bounds digit
    have positive : 0 < c.toNat - 48 := by
      have notZero : c ≠ '0' := by simpa using leading
      have differs : c.toNat ≠ '0'.toNat := fun same => notZero (Char.toNat_inj.mp same)
      have zero : '0'.toNat = 48 := rfl
      omega
    rw [Nat.ofDigitChars_cons, Nat.mul_zero, Nat.zero_add]
    exact (toDigits_append (fun d member => all d (by simp [member])) positive).symm.trans
      (by rw [toDigits_digit digit]; rfl)

theorem ofDigitChars_significant (digits : Text) :
    Nat.ofDigitChars 10 (significant digits) 0 = Nat.ofDigitChars 10 digits 0 := by
  induction digits with
  | nil => rfl
  | cons c rest ih =>
    by_cases zero : c = '0'
    · subst zero
      simpa [significant, Nat.ofDigitChars_cons] using ih
    · simp [significant, zero]

theorem significant_head (digits : Text) : (significant digits).head? ≠ some '0' := by
  intro zero
  have kept := List.head?_dropWhile_not (· = '0') digits
  simp only [significant] at zero
  simp [zero] at kept

theorem isDigit_significant {digits : Text} (all : ∀ c ∈ digits, c.isDigit = true) :
    ∀ c ∈ significant digits, c.isDigit = true := fun c member =>
  all c ((List.dropWhile_sublist _).subset member)

theorem toDigits_significant {digits : Text} (all : ∀ c ∈ digits, c.isDigit = true) :
    Nat.toDigits 10 (Nat.ofDigitChars 10 digits 0) = if significant digits = [] then ['0'] else significant digits := by
  rw [← ofDigitChars_significant]
  split
  next empty => simp [empty]
  next nonempty => exact toDigits_ofDigitChars ⟨nonempty, isDigit_significant all⟩ (significant_head digits)

/-! ## Reading in halves -/

/-- Halves joined by their place are the whole. -/
theorem valueOf_eq (digits : Text) : valueOf digits = Nat.ofDigitChars 10 digits 0 := by
  fun_induction valueOf digits with
  | case1 => rfl
  | case2 digits long half cut high low =>
    have kept : (digits.drop cut).length = half := by
      simp only [List.length_drop]
      omega
    calc valueOf (digits.take cut) * Nat.pow 10 half + valueOf (digits.drop cut)
        = Nat.pow 10 (digits.drop cut).length * Nat.ofDigitChars 10 (digits.take cut) 0 +
            Nat.ofDigitChars 10 (digits.drop cut) 0 := by rw [high, low, kept, Nat.mul_comm]
      _ = Nat.ofDigitChars 10 (digits.drop cut) (Nat.ofDigitChars 10 (digits.take cut) 0) :=
        Nat.ofDigitChars_eq_ofDigitChars_zero.symm
      _ = Nat.ofDigitChars 10 digits 0 := by rw [← Nat.ofDigitChars_append, List.take_append_drop]

theorem isDigits_iff {text : Text} : isDigits text = true ↔ IsDigits text := by
  simp [isDigits, IsDigits]

theorem parse?_eq (text : Text) : parse? text = if IsNumeral text then some (integerOf text) else none := by
  cases text with
  | nil => rfl
  | cons c rest =>
    by_cases minus : c = '-'
    · subst minus
      simp [parse?, isDigits_iff, IsNumeral, unsigned, integerOf, valueOf_eq]
    · simp [parse?, minus, isDigits_iff, IsNumeral, unsigned, integerOf, valueOf_eq]

theorem read_eq_ok_iff {text : Text} {n : Int} : read text = .ok n ↔ IsNumeral text ∧ n = integerOf text := by
  rw [read, parse?_eq]
  by_cases numeral : IsNumeral text <;> simp [numeral, eq_comm]

theorem read_eq_error_iff {text : Text} {error : LineError} :
    read text = .error error ↔ ¬ IsNumeral text ∧ error = .badNumeral text := by
  rw [read, parse?_eq]
  by_cases numeral : IsNumeral text <;> simp [numeral, eq_comm]

/-! ## Printing in halves -/

theorem isDigit_fillLeft {width : Nat} {digits : Text} (all : ∀ c ∈ digits, c.isDigit = true) :
    ∀ c ∈ fillLeft width digits, c.isDigit = true := by
  intro c member
  rcases List.mem_append.mp member with zero | digit
  · rw [List.eq_of_mem_replicate zero]
    rfl
  · exact all c digit

theorem ofDigitChars_fillLeft (width : Nat) (digits : Text) :
    Nat.ofDigitChars 10 (fillLeft width digits) 0 = Nat.ofDigitChars 10 digits 0 := by
  rw [fillLeft, Nat.ofDigitChars_append, Nat.ofDigitChars_replicate_zero, Nat.mul_zero]

theorem length_fillLeft_toDigits {n width : Nat} (positive : 0 < width) (small : n < Nat.pow 10 width) :
    (fillLeft width (Nat.toDigits 10 n)).length = width := by
  have fits : (Nat.toDigits 10 n).length ≤ width := (Nat.length_toDigits_le_iff (by decide) positive).mpr small
  simp only [fillLeft, List.length_append, List.length_replicate]
  omega

/-- The digits of a number are those of its part above a power of ten, then those of the part below
    in as many places as the power says. -/
theorem toDigits_high_low {n width : Nat} (positive : 0 < width) (above : Nat.pow 10 width ≤ n) :
    Nat.toDigits 10 (n / Nat.pow 10 width) ++ fillLeft width (Nat.toDigits 10 (n % Nat.pow 10 width)) =
      Nat.toDigits 10 n := by
  have power : 0 < Nat.pow 10 width := Nat.pow_pos (by decide)
  have below : n % Nat.pow 10 width < Nat.pow 10 width := Nat.mod_lt _ power
  rw [toDigits_append (isDigit_fillLeft fun c member => Nat.isDigit_of_mem_toDigits (by decide) (by decide) member)
    (Nat.div_pos above power)]
  rw [Nat.ofDigitChars_eq_ofDigitChars_zero, length_fillLeft_toDigits positive below, ofDigitChars_fillLeft,
    Nat.ofDigitChars_ten_toDigits]
  exact congrArg (Nat.toDigits 10) (Nat.div_add_mod n (Nat.pow 10 width))

theorem fillLeft_append (width : Nat) (front back : Text) :
    fillLeft (width - back.length) front ++ back = fillLeft width (front ++ back) := by
  have same : width - back.length - front.length = width - (front.length + back.length) := by omega
  simp [fillLeft, same]

/-- Printing in halves fills the digits of the number to the width. -/
theorem padded_eq (n width : Nat) : padded n width = fillLeft width (Nat.toDigits 10 n) := by
  fun_induction padded n width with
  | case1 n width small digits => rfl
  | case2 n width large half high low =>
    have above := Nat.not_lt.mp large
    have positive : 0 < half := halfWidth_pos above
    have places := length_fillLeft_toDigits positive (Nat.mod_lt n (Nat.pow_pos (by decide)))
    calc padded (n / Nat.pow 10 half) (width - half) ++ padded (n % Nat.pow 10 half) half
        = fillLeft (width - half) (Nat.toDigits 10 (n / Nat.pow 10 half)) ++
            fillLeft half (Nat.toDigits 10 (n % Nat.pow 10 half)) := by rw [high, low]
      _ = fillLeft width
            (Nat.toDigits 10 (n / Nat.pow 10 half) ++ fillLeft half (Nat.toDigits 10 (n % Nat.pow 10 half))) := by
        rw [← fillLeft_append, places]
      _ = fillLeft width (Nat.toDigits 10 n) := by
        rw [toDigits_high_low positive (pow_halfWidth_le above)]

theorem print_eq_decimal (n : Int) : print n = decimal n := by
  cases n with
  | ofNat n => simp [print, decimal, padded_eq, fillLeft]
  | negSucc n => simp [print, decimal, padded_eq, fillLeft, Int.negSucc_lt_zero]

/-! ## Canonical numerals -/

theorem isDigits_toDigits (n : Nat) : IsDigits (Nat.toDigits 10 n) :=
  ⟨Nat.toDigits_ne_nil, fun _ member => Nat.isDigit_of_mem_toDigits (by decide) (by decide) member⟩

theorem IsDigits.head_ne_minus {digits : Text} (written : IsDigits digits) : digits.head? ≠ some '-' := by
  intro minus
  have digit := written.2 '-' (List.mem_of_mem_head? minus)
  exact absurd digit (by decide)

theorem unsigned_of_head_ne {text : Text} (plain : text.head? ≠ some '-') : unsigned text = text := by
  unfold unsigned
  split
  · simp at plain
  · rfl

theorem ofDigitChars_eq_zero_iff {digits : Text} (all : ∀ c ∈ digits, c.isDigit = true) :
    Nat.ofDigitChars 10 digits 0 = 0 ↔ significant digits = [] := by
  constructor
  · intro zero
    have kept := toDigits_significant all
    rw [zero, Nat.toDigits_zero] at kept
    split at kept
    next empty => exact empty
    next => exact absurd (by rw [← kept]; rfl) (significant_head digits)
  · intro empty
    rw [← ofDigitChars_significant, empty]
    rfl

theorem head_toDigits {n : Nat} (positive : 0 < n) : (Nat.toDigits 10 n).head? ≠ some '0' := by
  have all := (isDigits_toDigits n).2
  have same := toDigits_significant all
  rw [Nat.ofDigitChars_ten_toDigits] at same
  have nonempty : significant (Nat.toDigits 10 n) ≠ [] := by
    rw [ne_eq, ← ofDigitChars_eq_zero_iff all, Nat.ofDigitChars_ten_toDigits]
    omega
  rw [if_neg nonempty] at same
  rw [same]
  exact significant_head _

theorem IsDigits.isNumeral {digits : Text} (written : IsDigits digits) : IsNumeral digits := by
  rw [IsNumeral, unsigned_of_head_ne written.head_ne_minus]
  exact written

theorem unsigned_decimal (n : Int) : unsigned (decimal n) = Nat.toDigits 10 n.natAbs := by
  unfold decimal
  split
  · rfl
  · exact unsigned_of_head_ne (isDigits_toDigits _).head_ne_minus

theorem head_decimal (n : Int) : (decimal n).head? = some '-' ↔ n < 0 := by
  unfold decimal
  split
  next negative => simp [negative]
  next plain => simp [plain, (isDigits_toDigits _).head_ne_minus]

theorem isCanonical_decimal (n : Int) : IsCanonical (decimal n) := by
  by_cases zero : n = 0
  · subst zero
    exact Or.inl rfl
  · refine Or.inr ⟨?_, ?_⟩
    · rw [IsNumeral, unsigned_decimal]
      exact isDigits_toDigits _
    · rw [unsigned_decimal]
      exact head_toDigits (by omega)

theorem mem_decimal {n : Int} {c : Char} (member : c ∈ decimal n) : c = '-' ∨ c.isDigit = true := by
  rw [decimal] at member
  split at member
  · rcases List.mem_cons.mp member with minus | digit
    · exact Or.inl minus
    · exact Or.inr ((isDigits_toDigits _).2 c digit)
  · exact Or.inr ((isDigits_toDigits _).2 c member)

theorem integerOf_decimal (n : Int) : integerOf (decimal n) = n := by
  rw [integerOf, unsigned_decimal, Nat.ofDigitChars_ten_toDigits]
  by_cases negative : n < 0
  · rw [if_pos ((head_decimal n).mpr negative)]
    omega
  · rw [if_neg (fun minus => negative ((head_decimal n).mp minus))]
    omega

theorem decimal_integerOf {text : Text} (numeral : IsNumeral text) : decimal (integerOf text) = canonicalForm text := by
  have digits := toDigits_significant numeral.2
  have zero := ofDigitChars_eq_zero_iff numeral.2
  unfold decimal canonicalForm
  by_cases minus : text.head? = some '-'
  · simp only [integerOf, if_pos minus, Int.natAbs_neg, Int.natAbs_natCast, digits]
    by_cases empty : significant (unsigned text) = []
    · simp [empty, zero.mpr empty]
    · have positive : 0 < Nat.ofDigitChars 10 (unsigned text) 0 := Nat.pos_of_ne_zero (empty ∘ zero.mp)
      simp [empty, positive]
  · simp only [integerOf, if_neg minus, Int.natAbs_natCast, digits]
    simp

/-- Reading a text and printing the integer makes a numeral canonical, whatever its
    length, and refuses any other text. What is printed is canonical and reads back. -/
theorem print_read_canonical :
    (∀ text, (read text).map print = if IsNumeral text then .ok (canonicalForm text) else .error (.badNumeral text)) ∧
      ∀ n, IsCanonical (print n) ∧ read (print n) = .ok n := by
  refine ⟨?_, ?_⟩
  · intro text
    by_cases numeral : IsNumeral text
    · rw [if_pos numeral, read_eq_ok_iff.mpr ⟨numeral, rfl⟩, Except.map, print_eq_decimal, decimal_integerOf numeral]
    · rw [if_neg numeral, read_eq_error_iff.mpr ⟨numeral, rfl⟩, Except.map]
  · intro n
    rw [print_eq_decimal]
    refine ⟨isCanonical_decimal n, read_eq_ok_iff.mpr ⟨?_, (integerOf_decimal n).symm⟩⟩
    rw [IsNumeral, unsigned_decimal]
    exact isDigits_toDigits _

example : canonicalForm "-0070".toList = "-70".toList ∧ canonicalForm "-00".toList = "0".toList := by decide

end LineCalc.Numeral
