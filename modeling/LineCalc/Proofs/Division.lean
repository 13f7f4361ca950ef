import LineCalc.Arithmetic

/-!
Division toward zero. The quotient of two integers is the quotient of their sizes with a sign
(`signedQuotient`), and the remainder is that of the sizes with the sign of the dividend
(`remainder_eq`); no other two integers make up the dividend with a remainder that is smaller than
the divisor and on the side of the dividend (`DividesTowardZero.unique`).
-/
namespace LineCalc

/-- A quotient and a remainder make up the dividend, the remainder is smaller than the divisor,
    and it is zero or has the sign of the dividend. -/
structure DividesTowardZero (dividend divisor quotient remainder : Int) : Prop where
  sum : dividend = divisor * quotient + remainder
  small : remainder.natAbs < divisor.natAbs
  side : remainder = 0 ∨ remainder.sign = dividend.sign

/-- A minus sign stands where just one of the two numbers is negative. -/
def signedQuotient (dividend divisor : Int) : Int :=
  let size : Int := (dividend.natAbs / divisor.natAbs : Nat)
  if decide (dividend < 0) = decide (divisor < 0) then size else -size

/-- An operation on two integers ends in an arithmetic error of these words. -/
def Value.Refuses (operation : Operation) (left right : Int) (words : Text) : Prop :=
  ∃ error, Value.apply operation (.integer left) (.integer right) = .error (.line error) ∧
    error.kind = .arithmetic ∧ error.message = words

/-! ## The quotient of the sizes -/

theorem tdiv_eq_signedQuotient (dividend divisor : Int) : dividend.tdiv divisor = signedQuotient dividend divisor := by
  have nonnegative : ∀ n : Nat, ¬ (n : Int) < 0 := by omega
  cases dividend <;> cases divisor <;> simp [signedQuotient, Int.tdiv, Int.negSucc_lt_zero, nonnegative]

theorem Operation.apply_div {divisor : Int} (nonzero : divisor ≠ 0) (dividend : Int) :
    apply .div dividend divisor = .ok (signedQuotient dividend divisor) := by
  rw [apply, if_neg nonzero, tdiv_eq_signedQuotient]

theorem Operation.apply_rem {divisor : Int} (nonzero : divisor ≠ 0) (dividend : Int) :
    apply .rem dividend divisor = .ok (dividend - divisor * signedQuotient dividend divisor) := by
  rw [apply, if_neg nonzero, Int.tmod_def, tdiv_eq_signedQuotient]

/-- The quotient leaves the remainder of the sizes, with the sign of the dividend. -/
theorem remainder_eq (dividend divisor : Int) :
    dividend - divisor * signedQuotient dividend divisor =
      if dividend < 0 then -((dividend.natAbs % divisor.natAbs : Nat) : Int)
      else (dividend.natAbs % divisor.natAbs : Nat) := by
  have sizes : (divisor.natAbs : Int) * (dividend.natAbs / divisor.natAbs : Nat) +
      (dividend.natAbs % divisor.natAbs : Nat) = dividend.natAbs := by
    exact_mod_cast Nat.div_add_mod dividend.natAbs divisor.natAbs
  unfold signedQuotient
  generalize ((dividend.natAbs / divisor.natAbs : Nat) : Int) = size at *
  -- The one product with the divisor has its size, up to the sign. All else is linear.
  have product : divisor * size = if divisor < 0 then -((divisor.natAbs : Int) * size) else divisor.natAbs * size := by
    split
    next negative => rw [Int.ofNat_natAbs_of_nonpos (Int.le_of_lt negative), Int.neg_mul, Int.neg_neg]
    next positive => rw [Int.natAbs_of_nonneg (Int.not_lt.mp positive)]
  by_cases below : dividend < 0 <;> by_cases negative : divisor < 0 <;>
    simp only [below, negative, decide_true, decide_false, if_true, if_false, reduceCtorEq, Int.mul_neg] at product ⊢ <;>
    omega

/-! ## What settles quotient and remainder -/

theorem dividesTowardZero_signedQuotient {divisor : Int} (nonzero : divisor ≠ 0) (dividend : Int) :
    DividesTowardZero dividend divisor (signedQuotient dividend divisor)
      (dividend - divisor * signedQuotient dividend divisor) := by
  have smaller : dividend.natAbs % divisor.natAbs < divisor.natAbs := Nat.mod_lt _ (by omega)
  refine ⟨by omega, ?_, ?_⟩
  · rw [remainder_eq]
    split <;> omega
  · rw [remainder_eq]
    by_cases whole : dividend.natAbs % divisor.natAbs = 0
    · exact Or.inl (by split <;> omega)
    · right
      split
      next below => rw [Int.sign_eq_neg_one_of_neg below, Int.sign_eq_neg_one_of_neg (by omega)]
      next above =>
        -- The sizes leave something, so the dividend is not zero.
        have positive : 0 < dividend := by
          rcases Int.lt_or_eq_of_le (Int.not_lt.mp above) with positive | zero
          · exact positive
          · exact absurd (by simp [← zero]) whole
        rw [Int.sign_eq_one_of_pos positive, Int.sign_eq_one_of_pos (by omega)]

namespace DividesTowardZero

variable {dividend divisor quotient remainder : Int}

theorem between (divides : DividesTowardZero dividend divisor quotient remainder) :
    (0 ≤ dividend → 0 ≤ remainder) ∧ (dividend ≤ 0 → remainder ≤ 0) := by
  rcases divides.side with zero | sameSign
  · omega
  · exact ⟨fun above => Int.sign_nonneg_iff.mp (sameSign ▸ Int.sign_nonneg_iff.mpr above),
      fun below => Int.sign_nonpos_iff.mp (sameSign ▸ Int.sign_nonpos_iff.mpr below)⟩

/-- Two remainders on one side of zero differ by less than the divisor, so they do not differ. -/
theorem unique (divides : DividesTowardZero dividend divisor quotient remainder) {otherQuotient otherRemainder : Int}
    (other : DividesTowardZero dividend divisor otherQuotient otherRemainder) :
    otherQuotient = quotient ∧ otherRemainder = remainder := by
  have sum := divides.sum
  have otherSum := other.sum
  have small := divides.small
  have otherSmall := other.small
  have near : (otherRemainder - remainder).natAbs < divisor.natAbs := by
    have between := divides.between
    have otherBetween := other.between
    omega
  have multiple : divisor ∣ otherRemainder - remainder := ⟨quotient - otherQuotient, by rw [Int.mul_sub]; omega⟩
  have sameRemainder : otherRemainder - remainder = 0 := Int.eq_zero_of_dvd_of_natAbs_lt_natAbs multiple near
  have nonzero : divisor ≠ 0 := by omega
  exact ⟨Int.eq_of_mul_eq_mul_left nonzero (by omega), by omega⟩

end DividesTowardZero

/-- Quotient and remainder make up the dividend, the remainder is smaller than the divisor and zero
    or of the sign of the dividend, and no other two integers do all this. A divisor that is zero is
    an error, in the words of the operation. -/
theorem Value.division_toward_zero (dividend divisor : Int) :
    (divisor ≠ 0 → ∃ quotient remainder,
      apply .div (.integer dividend) (.integer divisor) = .ok (.integer quotient) ∧
      apply .rem (.integer dividend) (.integer divisor) = .ok (.integer remainder) ∧
      ∀ otherQuotient otherRemainder, DividesTowardZero dividend divisor otherQuotient otherRemainder ↔
        otherQuotient = quotient ∧ otherRemainder = remainder) ∧
    (divisor = 0 → Refuses .div dividend divisor "division by zero".toList ∧
      Refuses .rem dividend divisor "modulo by zero".toList) := by
  constructor
  · intro nonzero
    have divides := dividesTowardZero_signedQuotient nonzero dividend
    refine ⟨signedQuotient dividend divisor, dividend - divisor * signedQuotient dividend divisor, ?_, ?_, ?_⟩
    · rw [apply, Operation.apply_div nonzero]
    · rw [apply, Operation.apply_rem nonzero]
    · intro otherQuotient otherRemainder
      constructor
      · exact divides.unique
      · rintro ⟨rfl, rfl⟩
        exact divides
  · rintro rfl
    exact ⟨⟨.divisionByZero, rfl, rfl, rfl⟩, ⟨.moduloByZero, rfl, rfl, rfl⟩⟩

theorem Value.division_toward_zero_negative :
    apply .div (.integer (-7)) (.integer 2) = .ok (.integer (-3)) ∧
    apply .rem (.integer (-7)) (.integer 2) = .ok (.integer (-1)) ∧
    (∀ quotient remainder, DividesTowardZero (-7) 2 quotient remainder → quotient = -3 ∧ remainder = -1) ∧
    Refuses .div (-7) 0 "division by zero".toList ∧ Refuses .rem (-7) 0 "modulo by zero".toList := by
  obtain ⟨quotient, remainder, divided, left, settled⟩ := (division_toward_zero (-7) 2).1 (by decide)
  obtain ⟨rfl, rfl⟩ := (settled (-3) (-1)).mp ⟨by decide, by decide, by decide⟩
  exact ⟨divided, left, fun _ _ => (settled _ _).mp, (division_toward_zero (-7) 0).2 rfl⟩

end LineCalc
