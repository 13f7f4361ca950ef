import LineCalc.Json.Number
import LineCalc.Proofs.Lexemes
import LineCalc.Proofs.Numerals
import LineCalc.Proofs.Rounding

/-!
How the numbers of the JSON notation are spelled. The parts of a number are found again behind one
another (`Number.spelled?_parts`), and integers and numbers of double precision are written as a
sign and such parts (`Number.print_eq_withSign`, `Number.exists_parts_writeReal`).
-/
namespace LineCalc

/-- Zeros behind the digits of a coefficient may be taken into the exponent. -/
theorem Double.ofDecimal_shift (negative : Bool) (coefficient : Nat) (exponent : Int) (zeros : Nat) :
    ofDecimal negative ⟨coefficient * 10 ^ zeros, exponent⟩ = ofDecimal negative ⟨coefficient, exponent + zeros⟩ := by
  have powers :
      zeros + exponent.toNat + (-(exponent + zeros)).toNat = (exponent + zeros).toNat + (-exponent).toNat := by omega
  refine ofDecimal_congr ?_ negative
  simp only [Decimal.Same, Decimal.dividend, Decimal.divisor, Nat.mul_assoc, ← Nat.pow_add, powers]

theorem Double.ofDecimal_zero (negative : Bool) (exponent : Int) :
    ofDecimal negative ⟨0, exponent⟩ = finite negative 0 := if_pos rfl

namespace Json.Number
open Numeral Decimal

/-! ## The parts of a number -/

/-- A text that does not go on with a number. -/
def Ends (text : Text) : Prop := ∀ c, text.head? = some c → c.isDigit = false ∧ c ≠ '.' ∧ c ≠ 'e' ∧ c ≠ 'E'

/-- Digits that may stand before a point. -/
structure IsWhole (text : Text) : Prop where
  digits : IsDigits text
  leading : text = ['0'] ∨ text.head? ≠ some '0'

/-- The integer that an exponent is, from its sign and its digits. -/
def power (exponent : Bool × Text) : Int := Double.signed exponent.1 (Nat.ofDigitChars 10 exponent.2 0)

/-- The digits behind a point, if there is one. -/
def pointed : Option Text → Text
  | none => []
  | some digits => '.' :: digits

/-- The sign and the digits of an exponent, if there is one. -/
def raised : Option (Bool × Text) → Text
  | none => []
  | some (negative, digits) => 'e' :: (if negative then '-' else '+') :: digits

/-- The parts of a number without a sign. -/
structure Parts where
  whole : Text
  fraction : Option Text
  exponent : Option (Bool × Text)
  isWhole : IsWhole whole
  fractionDigits : ∀ digits ∈ fraction, IsDigits digits
  exponentDigits : ∀ signed ∈ exponent, IsDigits signed.2

/-- The text of a number. -/
def Parts.text (parts : Parts) : Text := parts.whole ++ (pointed parts.fraction ++ raised parts.exponent)

def Parts.spelling (negative : Bool) (parts : Parts) : Spelling :=
  ⟨negative, parts.whole, parts.fraction, parts.exponent.map power⟩

theorem spanDigits_append {digits rest : Text} (all : ∀ c ∈ digits, c.isDigit = true)
    (ends : ∀ c, rest.head? = some c → c.isDigit = false) : spanDigits (digits ++ rest) = (digits, rest) := by
  obtain ⟨inside, behind⟩ := Munch.split_at_boundary all ends
  rw [spanDigits, inside, behind]

theorem spanWhole?_append {digits rest : Text} (whole : IsWhole digits)
    (ends : ∀ c, rest.head? = some c → c.isDigit = false) : spanWhole? (digits ++ rest) = some (digits, rest) := by
  obtain ⟨⟨nonempty, all⟩, rfl | leading⟩ := whole
  · rfl
  · obtain ⟨c, more, rfl⟩ := List.exists_cons_of_ne_nil nonempty
    have span := spanDigits_append all ends
    have digit := all c List.mem_cons_self
    rw [List.cons_append] at span ⊢
    unfold spanWhole?
    split
    next same =>
      cases same
      exact absurd rfl leading
    next same =>
      cases same
      rw [if_pos digit, span]
    next same => cases same

theorem spanFraction_append {fraction : Option Text} {rest : Text} (written : ∀ digits ∈ fraction, IsDigits digits)
    (ends : ∀ c, rest.head? = some c → c.isDigit = false ∧ c ≠ '.') :
    spanFraction (pointed fraction ++ rest) = (fraction, rest) := by
  cases fraction with
  | none =>
    show spanFraction rest = _
    unfold spanFraction
    split
    next => exact absurd rfl (ends '.' rfl).2
    next => rfl
  | some digits =>
    obtain ⟨nonempty, all⟩ := written digits rfl
    have span := spanDigits_append all fun c first => (ends c first).1
    simp [pointed, spanFraction, span, nonempty]

theorem spanExponent_append {exponent : Option (Bool × Text)} {rest : Text}
    (written : ∀ parts ∈ exponent, IsDigits parts.2) (ends : Ends rest) :
    spanExponent (raised exponent ++ rest) = (exponent.map power, rest) := by
  cases exponent with
  | none =>
    show spanExponent rest = _
    unfold spanExponent
    split
    next => rfl
    next mark after =>
      obtain ⟨-, -, small, capital⟩ := ends mark rfl
      simp [small, capital]
  | some parts =>
    obtain ⟨negative, digits⟩ := parts
    obtain ⟨nonempty, all⟩ := written _ rfl
    have span := spanDigits_append all fun c first => (ends c first).1
    cases negative <;> simp [raised, spanExponent, spanSign, span, nonempty, power, valueOf_eq]

theorem withSign_append (negative : Bool) (text rest : Text) :
    withSign negative text ++ rest = withSign negative (text ++ rest) := by
  cases negative <;> rfl

theorem withSign_text_ne_nil (negative : Bool) (parts : Parts) : withSign negative parts.text ≠ [] := by
  have nonempty : parts.text ≠ [] := List.append_ne_nil_of_left_ne_nil parts.isWhole.digits.1 _
  cases negative with
  | true => exact List.cons_ne_nil _ _
  | false => exact nonempty

/-- The parts of a number are found behind one another. -/
theorem spelled?_parts (negative : Bool) (parts : Parts) {rest : Text} (ends : Ends rest) :
    spelled? (withSign negative parts.text ++ rest) = some (parts.spelling negative, rest) := by
  obtain ⟨whole, fraction, exponent, isWhole, fractionDigits, exponentDigits⟩ := parts
  have behindFraction : ∀ c, (raised exponent ++ rest).head? = some c → c.isDigit = false ∧ c ≠ '.' := by
    intro c first
    cases exponent with
    | none => exact ⟨(ends c first).1, (ends c first).2.1⟩
    | some parts =>
      cases first
      exact ⟨rfl, by decide⟩
  have behindWhole : ∀ c, (pointed fraction ++ (raised exponent ++ rest)).head? = some c → c.isDigit = false := by
    intro c first
    cases fraction with
    | none => exact (behindFraction c first).1
    | some digits =>
      cases first
      rfl
  have wholeSpan := spanWhole?_append isWhole behindWhole
  have fractionSpan := spanFraction_append fractionDigits behindFraction
  have exponentSpan := spanExponent_append exponentDigits ends
  rw [withSign_append, Parts.text, List.append_assoc, List.append_assoc]
  cases negative with
  | true => simp [spelled?, withSign, Parts.spelling, wholeSpan, fractionSpan, exponentSpan]
  | false =>
    have unsigned : ∀ more, whole ++ (pointed fraction ++ (raised exponent ++ rest)) ≠ '-' :: more := by
      intro more same
      obtain ⟨c, digits, rfl⟩ := List.exists_cons_of_ne_nil isWhole.digits.1
      obtain ⟨rfl, -⟩ := List.cons.inj same
      exact isWhole.digits.head_ne_minus rfl
    rw [withSign, if_neg Bool.false_ne_true, spelled?]
    · simp [Parts.spelling, wholeSpan, fractionSpan, exponentSpan]
    · exact unsigned

/-! ## Integers -/

theorem isWhole_toDigits (n : Nat) : IsWhole (Nat.toDigits 10 n) where
  digits := isDigits_toDigits n
  leading := by
    rcases Nat.eq_zero_or_pos n with rfl | positive
    · exact Or.inl rfl
    · exact Or.inr (head_toDigits positive)

def Parts.ofInt (n : Int) : Parts where
  whole := Nat.toDigits 10 n.natAbs
  fraction := none
  exponent := none
  isWhole := isWhole_toDigits n.natAbs
  fractionDigits := by rintro _ ⟨⟩
  exponentDigits := by rintro _ ⟨⟩

theorem print_eq_withSign (n : Int) : Numeral.print n = withSign (n < 0) (Parts.ofInt n).text := by
  by_cases negative : n < 0 <;>
    simp [print_eq_decimal, Numeral.decimal, withSign, Parts.text, Parts.ofInt, pointed, raised, negative]

theorem integer_ofInt (n : Int) : ((Parts.ofInt n).spelling (n < 0)).integer = n := by
  simp only [Spelling.integer, Parts.spelling, Parts.ofInt, Double.signed, valueOf_eq, Nat.ofDigitChars_ten_toDigits,
    decide_eq_true_eq]
  split <;> omega

/-! ## Decimals -/

theorem stripRight_append (text : Text) :
    ∃ zeros, text = Text.stripRight (· = '0') text ++ List.replicate zeros '0' := by
  have cut := List.takeWhile_append_dropWhile (p := fun c : Char => decide (c = '0')) (l := text.reverse)
  generalize back : text.reverse.takeWhile (fun c : Char => decide (c = '0')) = zeros at cut
  have all : ∀ c ∈ zeros.reverse, c = '0' := by
    rw [← back]
    intro c member
    exact of_decide_eq_true (Munch.inside_takeWhile _ _ c (List.mem_reverse.mp member))
  refine ⟨zeros.reverse.length, ?_⟩
  rw [← List.eq_replicate_of_mem all, Text.stripRight, ← List.reverse_append, cut, List.reverse_reverse]

theorem ofDigitChars_zeros (before after : Nat) (digits : Text) :
    Nat.ofDigitChars 10 (List.replicate before '0' ++ (digits ++ List.replicate after '0')) 0 =
      Nat.ofDigitChars 10 digits 0 * 10 ^ after := by
  rw [Nat.ofDigitChars_append, Nat.ofDigitChars_replicate_zero, Nat.mul_zero, Nat.ofDigitChars_append,
    Nat.ofDigitChars_replicate_zero, Nat.mul_comm]

theorem fillLeft_of_le {width : Nat} {digits : Text} (enough : width ≤ digits.length) :
    fillLeft width digits = digits := by
  rw [fillLeft, Nat.sub_eq_zero_of_le enough, List.replicate_zero, List.nil_append]

theorem fillRight_of_le {width : Nat} {digits : Text} (enough : width ≤ digits.length) :
    fillRight width digits = digits := by
  rw [fillRight, Nat.sub_eq_zero_of_le enough, List.replicate_zero, List.append_nil]

/-- With the point in its place, the digits stand between zeros. -/
theorem writePlain_eq {digits : Text} (nonempty : digits ≠ []) (leading : digits.head? ≠ some '0') (place : Int) :
    ∃ whole fraction before after, writePlain digits place = whole ++ '.' :: fraction ∧
      whole ≠ [] ∧ (whole = ['0'] ∨ whole.head? ≠ some '0') ∧ fraction ≠ [] ∧
      whole ++ fraction = List.replicate before '0' ++ (digits ++ List.replicate after '0') ∧
      -(fraction.length : Int) + after = place - digits.length := by
  have count : 0 < digits.length := List.length_pos_iff.mpr nonempty
  have parts : writePlain digits place = fillLeft 1 (fillRight place.toNat (digits.take place.toNat)) ++
      '.' :: fillRight 1 (List.replicate (-place).toNat '0' ++ digits.drop place.toNat) := rfl
  rw [parts]
  by_cases positive : 0 < place
  · obtain ⟨places, rfl⟩ := Int.eq_ofNat_of_zero_le (Int.le_of_lt positive)
    have noGap : (-(places : Int)).toNat = 0 := by omega
    rw [Int.toNat_natCast, noGap, List.replicate_zero, List.nil_append]
    rcases Nat.lt_or_ge places digits.length with inside | behind
    · have taken : (digits.take places).length = places := List.length_take_of_le (Nat.le_of_lt inside)
      have left : (digits.drop places).length = digits.length - places := List.length_drop
      refine ⟨digits.take places, digits.drop places, 0, 0, ?_, ?_, Or.inr ?_, ?_, by simp, by omega⟩
      · rw [fillRight_of_le (by omega), fillLeft_of_le (by omega), fillRight_of_le (by omega)]
      · exact List.length_pos_iff.mp (by omega)
      · rw [List.head?_take, if_neg (by omega)]
        exact leading
      · exact List.length_pos_iff.mp (by omega)
    · refine ⟨digits ++ List.replicate (places - digits.length) '0', ['0'], 0, places - digits.length + 1, ?_,
        by simp [nonempty], Or.inr ?_, by simp, by simp [List.replicate_succ'], by simp; omega⟩
      · rw [List.take_of_length_le behind, List.drop_of_length_le behind, fillRight, fillLeft_of_le]
        · rfl
        · rw [List.length_append]
          omega
      · simpa [List.head?_append, nonempty] using leading
  · have none : place.toNat = 0 := by omega
    refine ⟨['0'], List.replicate (-place).toNat '0' ++ digits, (-place).toNat + 1, 0, ?_, by simp, Or.inl rfl,
      by simp [nonempty], by simp [List.replicate_succ], by simp; omega⟩
    rw [none, List.take_zero, List.drop_zero, fillRight_of_le (Nat.zero_le _),
      fillRight_of_le (by rw [List.length_append]; omega)]
    rfl

/-- Parts that spell the number of a decimal, and no integer. -/
structure Parts.Spells (parts : Parts) (decimal : Decimal) : Prop where
  noInteger : ∀ negative, (parts.spelling negative).isInteger = false
  real : ∀ negative, (parts.spelling negative).real = Double.ofDecimal negative decimal

section
variable {digits : Text} (written : IsDigits digits) (leading : digits.head? ≠ some '0')
include written leading

theorem exists_parts_plain (place : Int) :
    ∃ parts : Parts, parts.text = writePlain digits place ∧
      parts.Spells ⟨Nat.ofDigitChars 10 digits 0, place - digits.length⟩ := by
  obtain ⟨whole, fraction, before, after, text, wholeSome, wholeLeading, fractionSome, joined, point⟩ :=
    writePlain_eq written.1 leading place
  have all : ∀ c ∈ whole ++ fraction, c.isDigit = true := by
    rw [joined]
    intro c member
    simp only [List.mem_append, List.mem_replicate] at member
    rcases member with ⟨-, rfl⟩ | digit | ⟨-, rfl⟩
    · rfl
    · exact written.2 c digit
    · rfl
  have wholeDigits : IsDigits whole := ⟨wholeSome, fun c member => all c (List.mem_append_left _ member)⟩
  have fractionDigits : IsDigits fraction := ⟨fractionSome, fun c member => all c (List.mem_append_right _ member)⟩
  refine ⟨⟨whole, some fraction, none, ⟨wholeDigits, wholeLeading⟩, ?_, ?_⟩, ?_, fun _ => rfl, fun negative => ?_⟩
  · rintro _ ⟨⟩
    exact fractionDigits
  · rintro _ ⟨⟩
  · rw [text, Parts.text, pointed, raised, List.append_nil]
  · calc Double.ofDecimal negative ⟨valueOf (whole ++ fraction), 0 - fraction.length⟩
        = Double.ofDecimal negative ⟨Nat.ofDigitChars 10 digits 0 * 10 ^ after, -fraction.length⟩ := by
          rw [valueOf_eq, joined, ofDigitChars_zeros, Int.zero_sub]
      _ = Double.ofDecimal negative ⟨Nat.ofDigitChars 10 digits 0, place - digits.length⟩ := by
          rw [Double.ofDecimal_shift, point]

theorem exists_parts_scaled (width : Nat) (first : Int) :
    ∃ parts : Parts, parts.text = writeScaled width digits first ∧
      parts.Spells ⟨Nat.ofDigitChars 10 digits 0, first + 1 - digits.length⟩ := by
  obtain ⟨c, more, rfl⟩ := List.exists_cons_of_ne_nil written.1
  have digit := written.2 c List.mem_cons_self
  have rest : ∀ d ∈ more, d.isDigit = true := fun d member => written.2 d (List.mem_cons_of_mem c member)
  have isWhole : IsWhole [c] := ⟨⟨List.cons_ne_nil _ _, List.forall_mem_singleton.mpr digit⟩, Or.inr leading⟩
  let exponent : Text := fillLeft width (Nat.toDigits 10 first.natAbs)
  have exponentDigits : IsDigits exponent :=
    ⟨List.append_ne_nil_of_right_ne_nil _ Nat.toDigits_ne_nil, isDigit_fillLeft (isDigits_toDigits _).2⟩
  have same : power (first < 0, exponent) = first := by
    simp only [power, exponent, ofDigitChars_fillLeft, Nat.ofDigitChars_ten_toDigits, Double.signed, decide_eq_true_eq]
    split <;> omega
  -- A single digit has no point behind it.
  cases more with
  | nil =>
    refine ⟨⟨[c], none, some (first < 0, exponent), isWhole, ?_, ?_⟩, ?_, fun _ => rfl, fun negative => ?_⟩
    · rintro _ ⟨⟩
    · rintro _ ⟨⟩
      exact exponentDigits
    · simp [Parts.text, pointed, raised, writeScaled, exponent]
    · simp [Parts.spelling, Spelling.real, Spelling.decimal, valueOf_eq, same]
  | cons d more =>
    refine ⟨⟨[c], some (d :: more), some (first < 0, exponent), isWhole, ?_, ?_⟩, ?_, fun _ => rfl, fun negative => ?_⟩
    · rintro _ ⟨⟩
      exact ⟨List.cons_ne_nil _ _, rest⟩
    · rintro _ ⟨⟩
      exact exponentDigits
    · simp [Parts.text, pointed, raised, writeScaled, exponent]
    · simp [Parts.spelling, Spelling.real, Spelling.decimal, valueOf_eq, same]

end

/-- The digits of a decimal that are written. -/
def digitsOf (decimal : Decimal) : Text := Text.stripRight (· = '0') (Nat.toDigits 10 decimal.coefficient)

/-- How many of its digits a decimal has before the point. -/
def placeOf (decimal : Decimal) : Int := (Nat.toDigits 10 decimal.coefficient).length + decimal.exponent

theorem isDigits_digitsOf {decimal : Decimal} (positive : 0 < decimal.coefficient) :
    IsDigits (digitsOf decimal) ∧ (digitsOf decimal).head? ≠ some '0' := by
  obtain ⟨zeros, cut⟩ := stripRight_append (Nat.toDigits 10 decimal.coefficient)
  obtain ⟨some_, all⟩ := isDigits_toDigits decimal.coefficient
  have front := head_toDigits positive
  rw [cut] at some_ all front
  change digitsOf decimal ++ _ ≠ [] at some_
  change ∀ c ∈ digitsOf decimal ++ _, _ at all
  change (digitsOf decimal ++ _).head? ≠ _ at front
  cases digits : digitsOf decimal with
  | nil =>
    rw [digits, List.nil_append] at some_ front
    cases zeros with
    | zero => exact absurd rfl some_
    | succ zeros => exact absurd rfl front
  | cons c more =>
    rw [digits] at all front
    exact ⟨⟨List.cons_ne_nil _ _, fun d member => all d (List.mem_append_left _ member)⟩, front⟩

/-- The digits that are written stand for the decimal, with the point in its place. -/
theorem Parts.Spells.of_digits {decimal : Decimal} {parts : Parts} (spells : parts.Spells
    ⟨Nat.ofDigitChars 10 (digitsOf decimal) 0, placeOf decimal - (digitsOf decimal).length⟩) : parts.Spells decimal := by
  obtain ⟨zeros, cut⟩ := stripRight_append (Nat.toDigits 10 decimal.coefficient)
  have value : Nat.ofDigitChars 10 (digitsOf decimal) 0 * 10 ^ zeros = decimal.coefficient := by
    rw [← ofDigitChars_zeros 0 zeros, List.replicate_zero, List.nil_append, digitsOf, ← cut,
      Nat.ofDigitChars_ten_toDigits]
  have point : placeOf decimal - (digitsOf decimal).length = decimal.exponent + zeros := by
    have count := congrArg List.length cut
    rw [List.length_append, List.length_replicate] at count
    simp only [placeOf, digitsOf]
    omega
  refine ⟨spells.noInteger, fun negative => ?_⟩
  rw [spells.real, point, ← Double.ofDecimal_shift, value]

/-- The text of a decimal spells its number. A zero is written without an exponent. -/
theorem exists_parts {decimal : Decimal} (zero : decimal.coefficient = 0 → decimal.exponent = 0) :
    ∃ parts : Parts, parts.text = decimal.write layout ∧ parts.Spells decimal := by
  rcases Nat.eq_zero_or_pos decimal.coefficient with none | positive
  · obtain ⟨coefficient, exponent⟩ := decimal
    obtain rfl : coefficient = 0 := none
    obtain rfl : exponent = 0 := zero rfl
    have isZero : IsDigits ['0'] := ⟨List.cons_ne_nil _ _, List.forall_mem_singleton.mpr rfl⟩
    refine ⟨⟨['0'], some ['0'], none, ⟨isZero, Or.inl rfl⟩, ?_, ?_⟩, rfl, fun _ => rfl, fun negative => ?_⟩
    · rintro _ ⟨⟩
      exact isZero
    · rintro _ ⟨⟩
    · simp [Parts.spelling, Spelling.real, Spelling.decimal, valueOf_eq, Nat.ofDigitChars_cons, Double.ofDecimal_zero]
  · obtain ⟨written, leading⟩ := isDigits_digitsOf positive
    have text : decimal.write layout = if layout.plainFrom < placeOf decimal && placeOf decimal ≤ layout.plainBelow
        then writePlain (digitsOf decimal) (placeOf decimal)
        else writeScaled layout.exponentWidth (digitsOf decimal) (placeOf decimal - 1) := rfl
    rw [text]
    split
    · obtain ⟨parts, text, spells⟩ := exists_parts_plain written leading (placeOf decimal)
      exact ⟨parts, text, spells.of_digits⟩
    · obtain ⟨parts, text, spells⟩ := exists_parts_scaled written leading layout.exponentWidth (placeOf decimal - 1)
      rw [Int.sub_add_cancel] at spells
      exact ⟨parts, text, spells.of_digits⟩

theorem exists_parts_writeReal {negative : Bool} {quanta : Nat} (fits : (Double.finite negative quanta).Fits) :
    ∃ parts : Parts, writeReal (.finite negative quanta) = withSign negative parts.text ∧
      (parts.spelling negative).isInteger = false ∧ (parts.spelling negative).real = .finite negative quanta := by
  obtain ⟨parts, text, spells⟩ := exists_parts (Double.exponent_shortest fits)
  refine ⟨parts, by rw [writeReal, text], spells.noInteger negative, ?_⟩
  rw [spells.real, Double.ofDecimal_shortest fits]

end Json.Number
end LineCalc
