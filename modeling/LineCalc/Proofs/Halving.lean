import LineCalc.Proofs.Places

/-!
Where a number is cut to be printed in halves, and how deep the halves are cut in turn. A digit
takes between three and four bits, so the half that is estimated from the bits leaves at most two
thirds of the digits on either side (`Numeral.length_halves`), and a cap on the calls inside of
one another that grows with the logarithm of the digits is not met (`Numeral.paddedWithin_eq`).
-/
namespace LineCalc.Numeral
open Decimal

/-- The digits add up to the number over their places, and they begin with a zero only if that is
    all there is. -/
structure IsDecimalOf (n : Nat) (digits : Text) : Prop where
  written : IsDigits digits
  sum : placeSum digits = n
  leading : digits = ['0'] ∨ digits.head? ≠ some '0'

/-- A cut in front of the last digits leaves some digits on either side and something above it, and
    either part is smaller than the number. -/
structure CutsInside (n cut digits : Nat) : Prop where
  below : 1 ≤ cut
  above : cut < digits
  high_pos : 0 < n / 10 ^ cut
  high_lt : n / 10 ^ cut < n
  low_lt : n % 10 ^ cut < n

/-- At most `levels` calls stand inside of one another; it gives up where more would be needed. -/
def paddedWithin : Nat → Nat → Nat → Option Text
  | 0, _, _ => none
  | levels + 1, n, width =>
    if n < plainLimit then some (fillLeft width (Nat.toDigits 10 n))
    else
      let half := halfWidth n
      match paddedWithin levels (n / 10 ^ half) (width - half) with
      | none => none
      | some high =>
        match paddedWithin levels (n % 10 ^ half) half with
        | none => none
        | some low => some (high ++ low)

/-! ## Bits and digits -/

theorem lt_ten_pow_length (n : Nat) : n < 10 ^ (Nat.toDigits 10 n).length :=
  (Nat.length_toDigits_le_iff (by decide) Nat.length_toDigits_pos).mp (Nat.le_refl _)

theorem ten_pow_le {n : Nat} (positive : 0 < n) : 10 ^ ((Nat.toDigits 10 n).length - 1) ≤ n := by
  rcases Nat.eq_zero_or_pos ((Nat.toDigits 10 n).length - 1) with single | more
  · rw [single]
    exact positive
  · refine Nat.not_lt.mp fun small => ?_
    have fits := (Nat.length_toDigits_le_iff (by decide) more).mpr small
    omega

/-- A digit takes at most four bits. -/
theorem log2_lt_length {n : Nat} (positive : 0 < n) : n.log2 < 4 * (Nat.toDigits 10 n).length := by
  refine (Nat.log2_lt (by omega)).mpr ?_
  calc n < 10 ^ (Nat.toDigits 10 n).length := lt_ten_pow_length n
    _ ≤ 16 ^ (Nat.toDigits 10 n).length := Nat.pow_le_pow_left (by decide) _
    _ = 2 ^ (4 * (Nat.toDigits 10 n).length) := (Nat.pow_mul 2 4 _).symm

/-- A digit behind the first one takes at least three bits. -/
theorem length_le_log2 {n : Nat} (positive : 0 < n) : 3 * ((Nat.toDigits 10 n).length - 1) ≤ n.log2 := by
  refine (Nat.le_log2 (by omega)).mpr ?_
  calc 2 ^ (3 * ((Nat.toDigits 10 n).length - 1)) = 8 ^ ((Nat.toDigits 10 n).length - 1) := Nat.pow_mul 2 3 _
    _ ≤ 10 ^ ((Nat.toDigits 10 n).length - 1) := Nat.pow_le_pow_left (by decide) _
    _ ≤ n := ten_pow_le positive

/-! ## The two halves -/

theorem lt_plainLimit_iff {n : Nat} : n < plainLimit ↔ (Nat.toDigits 10 n).length ≤ plainDigits := by
  -- For any exponent at first, so that the limit is not computed.
  have general : ∀ digits, 0 < digits → (n < Nat.pow 10 digits ↔ (Nat.toDigits 10 n).length ≤ digits) :=
    fun _ positive => (Nat.length_toDigits_le_iff (by decide) positive).symm
  unfold plainLimit
  exact general plainDigits (by decide)

theorem length_high {n cut : Nat} (positive : 0 < cut) (above : 10 ^ cut ≤ n) :
    (Nat.toDigits 10 (n / 10 ^ cut)).length + cut = (Nat.toDigits 10 n).length := by
  have whole := congrArg List.length (toDigits_high_low positive above)
  have low := length_fillLeft_toDigits positive (Nat.mod_lt n (Nat.pow_pos (by decide)))
  rwa [List.length_append, low] at whole

theorem length_low (n : Nat) {cut : Nat} (positive : 0 < cut) : (Nat.toDigits 10 (n % 10 ^ cut)).length ≤ cut :=
  (Nat.length_toDigits_le_iff (by decide) positive).mpr (Nat.mod_lt n (Nat.pow_pos (by decide)))

/-- A number of more digits than are converted one by one is cut inside of them. -/
theorem cutsInside {n : Nat} (large : plainLimit ≤ n) : CutsInside n (halfWidth n) (Nat.toDigits 10 n).length where
  below := halfWidth_pos large
  above := (Nat.pow_lt_pow_iff_right (by decide)).mp (Nat.lt_of_le_of_lt (pow_halfWidth_le large) (lt_ten_pow_length n))
  high_pos := Nat.div_pos (pow_halfWidth_le large) (Nat.pow_pos (by decide))
  high_lt := high_lt large
  low_lt := low_lt large

/-- The estimated half leaves at most two thirds of the digits on either side. -/
theorem length_halves {n : Nat} (large : plainLimit ≤ n) :
    3 * (Nat.toDigits 10 (n / 10 ^ halfWidth n)).length ≤ 2 * (Nat.toDigits 10 n).length ∧
      3 * (Nat.toDigits 10 (n % 10 ^ halfWidth n)).length ≤ 2 * (Nat.toDigits 10 n).length := by
  have many : 1000 < (Nat.toDigits 10 n).length := Nat.not_le.mp (lt_plainLimit_iff.not.mp (Nat.not_lt.mpr large))
  have positive : 0 < n := Nat.lt_of_lt_of_le (by decide) (Nat.le_trans plainLimit_large large)
  have fewBits := log2_lt_length positive
  have manyBits := length_le_log2 positive
  have thirds : (Nat.toDigits 10 n).length ≤ 3 * halfWidth n ∧ 3 * halfWidth n ≤ 2 * (Nat.toDigits 10 n).length := by
    unfold halfWidth
    omega
  have high := length_high (halfWidth_pos large) (pow_halfWidth_le large)
  have low := length_low n (halfWidth_pos large)
  omega

/-! ## Calls inside of one another -/

theorem two_pow_mul_le_of_thirds {levels part whole : Nat} (thirds : 3 * part ≤ 2 * whole)
    (few : 2 ^ (levels + 1) * whole ≤ 3 ^ (levels + 1) * plainDigits) :
    2 ^ levels * part ≤ 3 ^ levels * plainDigits := by
  refine Nat.le_of_mul_le_mul_left ?_ (by decide : 0 < 3)
  calc 3 * (2 ^ levels * part) = 2 ^ levels * (3 * part) := Nat.mul_left_comm ..
    _ ≤ 2 ^ levels * (2 * whole) := Nat.mul_le_mul_left _ thirds
    _ = 2 ^ (levels + 1) * whole := by rw [Nat.pow_succ, Nat.mul_assoc]
    _ ≤ 3 ^ (levels + 1) * plainDigits := few
    _ = 3 * (3 ^ levels * plainDigits) := by rw [Nat.pow_succ, Nat.mul_comm (3 ^ levels), Nat.mul_assoc]

/-- With one more level a number may have half as many digits again. -/
theorem paddedWithin_eq (n width levels : Nat)
    (few : 2 ^ levels * (Nat.toDigits 10 n).length ≤ 3 ^ levels * plainDigits) :
    paddedWithin (levels + 1) n width = some (padded n width) := by
  revert levels
  fun_induction padded n width with
  | case1 n width small digits =>
    intro levels few
    rw [paddedWithin, if_pos small]
    rfl
  | case2 n width long half high low =>
    intro levels few
    have large := Nat.not_lt.mp long
    cases levels with
    | zero =>
      rw [Nat.pow_zero, Nat.pow_zero, Nat.one_mul, Nat.one_mul] at few
      exact absurd (lt_plainLimit_iff.mpr few) long
    | succ levels =>
      obtain ⟨highThirds, lowThirds⟩ := length_halves large
      have highFits : paddedWithin (levels + 1) (n / 10 ^ halfWidth n) (width - halfWidth n) = some _ :=
        high levels (two_pow_mul_le_of_thirds highThirds few)
      have lowFits : paddedWithin (levels + 1) (n % 10 ^ halfWidth n) (halfWidth n) = some _ :=
        low levels (two_pow_mul_le_of_thirds lowThirds few)
      rw [paddedWithin, if_neg long]
      dsimp only
      rw [highFits, lowFits]

/-- Two thirds of two thirds are less than a half, so a count is used up in twice its logarithm. -/
theorem two_pow_mul_le {levels count : Nat} (enough : 2 * count.log2 ≤ levels) :
    2 ^ levels * count ≤ 3 ^ levels * plainDigits := by
  obtain ⟨more, rfl⟩ := Nat.exists_eq_add_of_le enough
  calc 2 ^ (2 * count.log2 + more) * count
      ≤ 2 ^ (2 * count.log2 + more) * 2 ^ (count.log2 + 1) := Nat.mul_le_mul_left _ (Nat.le_of_lt Nat.lt_log2_self)
    _ = 8 ^ count.log2 * 2 ^ more * 2 := by
      rw [show 8 ^ count.log2 = 2 ^ (3 * count.log2) from (Nat.pow_mul 2 3 _).symm, ← Nat.pow_add, ← Nat.pow_add,
        ← Nat.pow_succ]
      exact congrArg (2 ^ ·) (by omega)
    _ ≤ 9 ^ count.log2 * 3 ^ more * plainDigits :=
      Nat.mul_le_mul (Nat.mul_le_mul (Nat.pow_le_pow_left (by decide) _) (Nat.pow_le_pow_left (by decide) _)) (by decide)
    _ = 3 ^ (2 * count.log2 + more) * plainDigits := by rw [Nat.pow_add 3, Nat.pow_mul]

/-! ## The digits as they are written -/

theorem isDecimalOf_iff {n : Nat} {text : Text} : IsDecimalOf n text ↔ text = Nat.toDigits 10 n := by
  constructor
  · rintro ⟨written, rfl, rfl | leading⟩
    · rfl
    · rw [← ofDigitChars_eq_placeSum, toDigits_ofDigitChars written leading]
  · rintro rfl
    refine ⟨isDigits_toDigits n, by rw [← ofDigitChars_eq_placeSum, Nat.ofDigitChars_ten_toDigits], ?_⟩
    rcases Nat.eq_zero_or_pos n with rfl | positive
    · exact Or.inl rfl
    · exact Or.inr (head_toDigits positive)

theorem isDecimalOf_zero_run {places zeros : Nat} (last : places = zeros + 1) :
    IsDecimalOf (10 ^ places + 7) ('1' :: (List.replicate zeros '0' ++ ['7'])) where
  written := by
    refine ⟨by simp, fun c member => ?_⟩
    simp only [List.mem_cons, List.mem_append, List.mem_replicate, List.not_mem_nil, or_false] at member
    rcases member with rfl | ⟨-, rfl⟩ | rfl <;> rfl
  sum := by
    rw [placeSum_cons, ← ofDigitChars_eq_placeSum, last, Nat.ofDigitChars_append, Nat.ofDigitChars_replicate_zero]
    simp [Nat.ofDigitChars_cons]
  leading := Or.inr (by simp)

theorem length_fillLeft (width : Nat) (digits : Text) : (fillLeft width digits).length = max width digits.length := by
  rw [fillLeft, List.length_append, List.length_replicate]
  omega

/-- A number of any size is printed to any width as its digits with zeros in front of them, in calls
    that are no deeper inside of one another than twice the logarithm of the digits. A cut is inside
    of the digits, so the part above is not zero and both parts are smaller. -/
theorem padded_fills_digits (n width : Nat) :
    ∃ digits, (∀ text, IsDecimalOf n text ↔ text = digits) ∧
      (∀ levels, 2 * digits.length.log2 < levels → paddedWithin levels n width = some (padded n width)) ∧
      padded n width = List.replicate (width - digits.length) '0' ++ digits ∧
      (padded n width).length = max width digits.length ∧
      (plainLimit ≤ n → CutsInside n (halfWidth n) digits.length) := by
  refine ⟨Nat.toDigits 10 n, fun text => isDecimalOf_iff, ?_, padded_eq n width, ?_, cutsInside⟩
  · intro levels enough
    obtain ⟨inner, rfl⟩ := Nat.exists_eq_succ_of_ne_zero (Nat.ne_of_gt (Nat.zero_lt_of_lt enough))
    exact paddedWithin_eq n width inner (two_pow_mul_le (Nat.le_of_lt_succ enough))
  · rw [padded_eq, length_fillLeft]

/-- A number with a long run of zeros inside, which is cut in this run. -/
theorem padded_fills_digits_zero_run :
    plainLimit ≤ 10 ^ 6000 + 7 ∧ CutsInside (10 ^ 6000 + 7) 3000 6001 ∧
      padded (10 ^ 6000 + 7) 6002 = '0' :: '1' :: (List.replicate 5999 '0' ++ ['7']) ∧
      paddedWithin 25 (10 ^ 6000 + 7) 6002 = some ('0' :: '1' :: (List.replicate 5999 '0' ++ ['7'])) := by
  have large : plainLimit ≤ 10 ^ 6000 + 7 := by decide +kernel
  have half : halfWidth (10 ^ 6000 + 7) = 3000 := by decide +kernel
  obtain ⟨digits, settled, ended, filled, -, inside⟩ := padded_fills_digits (10 ^ 6000 + 7) 6002
  obtain rfl := (settled _).mp (isDecimalOf_zero_run (rfl : 6000 = 5999 + 1))
  have places : ('1' :: (List.replicate 5999 '0' ++ ['7'])).length = 6001 := by
    rw [List.length_cons, List.length_append, List.length_replicate]
    rfl
  rw [places] at ended filled inside
  exact ⟨large, half ▸ inside large, filled, (ended 25 (by decide)).trans (congrArg some filled)⟩

end LineCalc.Numeral
