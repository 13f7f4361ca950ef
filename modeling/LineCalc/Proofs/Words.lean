import LineCalc.Json.Writer
import LineCalc.Proofs.Spelling

/-!
The words of the JSON notation are read back as they are written: an integer
(`Json.readNumber?_print`), a number of double precision (`Json.readNumber?_writeReal`), and a
text (`Json.readText?_units`).
-/
namespace LineCalc.Json
open Number

/-! ## Numbers -/

theorem start_of_readNumber? {c : Char} {text : Text} {found : Token × Text}
    (read : readNumber? (c :: text) = some found) : c = '-' ∨ c.isDigit = true := by
  by_contra outside
  obtain ⟨noMinus, noDigit⟩ := not_or.mp outside
  have noWhole : spanWhole? (c :: text) = none := by
    unfold spanWhole?
    split
    next same =>
      cases same
      exact absurd rfl noDigit
    next same =>
      cases same
      exact if_neg noDigit
    next => rfl
  have none : spelled? (c :: text) = none := by
    rw [spelled?]
    · rw [noWhole]
      rfl
    · rintro _ ⟨⟩
      exact noMinus rfl
  rw [readNumber?, none] at read
  cases read

theorem readToken?_of_readNumber? {c : Char} {text : Text} {found : Token × Text}
    (read : readNumber? (c :: text) = some found) : isSpace c = false ∧ readToken? c text = some found := by
  have start := start_of_readNumber? read
  have noMark : mark? c = none := by
    unfold mark?
    split <;> first | rfl | exact absurd start (by decide)
  have noQuote : c ≠ '"' := by
    rintro rfl
    exact absurd start (by decide)
  have noSpace : isSpace c = false := by
    simp only [isSpace, Bool.or_eq_false_iff, decide_eq_false_iff_not]
    refine ⟨⟨⟨?_, ?_⟩, ?_⟩, ?_⟩ <;> (rintro rfl; exact absurd start (by decide))
  rw [readToken?, noMark]
  simp only [if_neg noQuote, read, Option.some_or, noSpace, and_self]

theorem readNumber?_print {n : Int} (short : (Nat.toDigits 10 n.natAbs).length ≤ Numeral.digitLimit) {rest : Text}
    (ends : Ends rest) : readNumber? (Numeral.print n ++ rest) = some (.int n, rest) := by
  have integer : ((Parts.ofInt n).spelling (n < 0)).isInteger = true := rfl
  have digits : ((Parts.ofInt n).spelling (n < 0)).whole.length ≤ Numeral.digitLimit := short
  rw [print_eq_withSign, readNumber?, spelled?_parts _ _ ends]
  simp only [integer, digits, integer_ofInt, Bool.not_true, Bool.false_eq_true, if_false, if_true]

theorem readNumber?_writeReal {negative : Bool} {quanta : Nat} (fits : (Double.finite negative quanta).Fits)
    {rest : Text} (ends : Ends rest) :
    readNumber? (writeReal (.finite negative quanta) ++ rest) = some (.real (.finite negative quanta), rest) := by
  obtain ⟨parts, text, noInteger, real⟩ := exists_parts_writeReal fits
  rw [text, readNumber?, spelled?_parts _ _ ends]
  simp only [noInteger, real, Bool.not_false, if_true]

theorem print_ne_nil (n : Int) : Numeral.print n ≠ [] := by
  rw [print_eq_withSign]
  exact withSign_text_ne_nil _ _

theorem writeReal_ne_nil {negative : Bool} {quanta : Nat} (fits : (Double.finite negative quanta).Fits) :
    writeReal (.finite negative quanta) ≠ [] := by
  obtain ⟨parts, text, -⟩ := exists_parts_writeReal fits
  rw [text]
  exact withSign_text_ne_nil _ _

/-! ## Texts -/

theorem hexValue?_digitChar {digit : Nat} (small : digit < 16) : hexValue? digit.digitChar = some digit := by
  have all : ∀ digit < 16, hexValue? digit.digitChar = some digit := by decide
  exact all digit small

theorem hexadecimal_eq {n : Nat} (small : n < 0x10000) :
    Text.hexadecimal 4 n =
      [(n / 0x1000).digitChar, (n / 0x100 % 16).digitChar, (n / 16 % 16).digitChar, (n % 16).digitChar] := by
  have step (n : Nat) : Nat.toDigits 16 n =
      if n < 16 then [n.digitChar] else Nat.toDigits 16 (n / 16) ++ [(n % 16).digitChar] :=
    Nat.toDigits_eq_if (by decide)
  have second : n / 16 / 16 = n / 0x100 := Nat.div_div_eq_div_mul n 16 16
  have third : n / 0x100 / 16 = n / 0x1000 := Nat.div_div_eq_div_mul n 0x100 16
  rw [Text.hexadecimal, step n, step (n / 16), second, step (n / 0x100), third, step (n / 0x1000)]
  by_cases one : n < 16
  · have none : n / 0x1000 = 0 ∧ n / 0x100 = 0 ∧ n / 16 = 0 ∧ n % 16 = n := by omega
    simp [one, none]
  by_cases two : n / 16 < 16
  · have none : n / 0x1000 = 0 ∧ n / 0x100 = 0 ∧ n / 16 % 16 = n / 16 := by omega
    simp [one, two, none]
  by_cases three : n / 0x100 < 16
  · have none : n / 0x1000 = 0 ∧ n / 0x100 % 16 = n / 0x100 := by omega
    simp [one, two, three, none]
  · have four : n / 0x1000 < 16 := by omega
    simp [one, two, three, four]

theorem hexValue4?_hexadecimal {n : Nat} (small : n < 0x10000) :
    ∃ a b c d, Text.hexadecimal 4 n = [a, b, c, d] ∧ hexValue4? a b c d = some n := by
  refine ⟨_, _, _, _, hexadecimal_eq small, ?_⟩
  have value : (((n / 0x1000 * 16 + n / 0x100 % 16) * 16 + n / 16 % 16) * 16 + n % 16) = n := by omega
  have first : n / 0x1000 < 16 := by omega
  simp [hexValue4?, hexValue?_digitChar, Nat.mod_lt, first, value]

theorem toNat_ofNat {n : Nat} (small : n < 0xd800) : (Char.ofNat n).toNat = n := by
  have valid : n.isValidChar := Or.inl small
  rw [Char.ofNat, dif_pos valid]
  rfl

theorem unitsOf_ofNat {unit : UInt16} (small : unit.toNat < 0xd800) :
    Text.unitsOf (Char.ofNat unit.toNat) = [unit] := by
  rw [Text.unitsOf, toNat_ofNat small, if_pos (by omega), Nat.toUInt16_eq, UInt16.ofNat_toNat]

theorem letter?_eq_some {unit : UInt16} {letter : Char} (found : letter? unit = some letter) :
    letter ≠ 'u' ∧ escape? letter = some (Char.ofNat unit.toNat) ∧ unit.toNat < 0xd800 := by
  unfold letter? at found
  split_ifs at found <;> (cases found; subst unit; decide)

/-- A quote and a backslash are written with an escape. -/
theorem ofNat_of_letter? {unit : UInt16} (small : unit.toNat < 0xd800) (none : letter? unit = none) :
    Char.ofNat unit.toNat ≠ '"' ∧ Char.ofNat unit.toNat ≠ '\\' := by
  constructor <;> intro same
  · have code : unit.toNat = 0x22 := by rw [← toNat_ofNat small, same]; rfl
    rw [(UInt16.toNat_inj (b := 0x22)).mp code] at none
    cases none
  · have code : unit.toNat = 0x5c := by rw [← toNat_ofNat small, same]; rfl
    rw [(UInt16.toNat_inj (b := 0x5c)).mp code] at none
    cases none

/-- A unit is read back from its escape or its character. -/
theorem readUnits_writeUnit (unit : UInt16) (text : Text) :
    readUnits (writeUnit unit ++ text) = (readUnits text).map fun (units, after) => (unit :: units, after) := by
  unfold writeUnit
  split
  next letter found =>
    obtain ⟨noCode, escape, small⟩ := letter?_eq_some found
    show readUnits ('\\' :: letter :: text) = _
    rw [readUnits]
    · rw [escape]
      cases readUnits text with
      | none => rfl
      | some read => simp [unitsOf_ofNat small]
    · intro _ _ _ _ _ same
      exact absurd same noCode
  next noLetter =>
    split
    next plain =>
      rw [Bool.and_eq_true, decide_eq_true_eq, decide_eq_true_eq] at plain
      have small : unit.toNat < 0xd800 := by omega
      obtain ⟨noQuote, noBackslash⟩ := ofNat_of_letter? small noLetter
      show readUnits (Char.ofNat unit.toNat :: text) = _
      rw [readUnits]
      · rw [toNat_ofNat small, if_neg (by omega), unitsOf_ofNat small]
        cases readUnits text with
        | none => rfl
        | some read => rfl
      · exact noQuote
      · intro _ _ _ _ _ same
        exact absurd same noBackslash
      · intro _ _ same
        exact absurd same noBackslash
    next =>
      obtain ⟨a, b, c, d, digits, value⟩ := hexValue4?_hexadecimal unit.toNat_lt
      rw [digits]
      show readUnits ('\\' :: 'u' :: a :: b :: c :: d :: text) = _
      rw [readUnits, value]
      cases readUnits text with
      | none => rfl
      | some read => simp

theorem readText?_units (units : Text.Units) (rest : Text) :
    readText? (units.flatMap writeUnit ++ '"' :: rest) = some (.str units, rest) := by
  have read : readUnits (units.flatMap writeUnit ++ '"' :: rest) = some (units, rest) := by
    induction units with
    | nil => rfl
    | cons unit units ih => rw [List.flatMap_cons, List.append_assoc, readUnits_writeUnit, ih, Option.map_some]
  rw [readText?, read, Option.map_some]

end LineCalc.Json
