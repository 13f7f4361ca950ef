import LineCalc.Double.Shortest
import Mathlib.Algebra.Order.Group.Nat
import Mathlib.Tactic.Ring

/-!
Numbers of double precision and the decimals that stand for them. Which number stands for a
decimal depends on the value of the decimal alone (`Double.ofDecimal_congr`): what is told apart
first because it is too large or too small by far would be rounded to the same
(`Double.ofDecimal_eq`). A number is that of its shortest decimal (`Double.ofDecimal_shortest`).
-/
namespace LineCalc

/-- The dividend of a decimal as a quotient of whole numbers. -/
def Decimal.dividend (decimal : Decimal) : Nat := decimal.coefficient * 10 ^ decimal.exponent.toNat

def Decimal.divisor (decimal : Decimal) : Nat := 10 ^ (-decimal.exponent).toNat

/-- Decimals of the same value. -/
def Decimal.Same (decimal other : Decimal) : Prop :=
  decimal.dividend * other.divisor = other.dividend * decimal.divisor

theorem Decimal.divisor_pos (decimal : Decimal) : 0 < decimal.divisor := Nat.pow_pos (by decide)

/-! ## Rounded quotients -/

theorem roundedQuotient_mul_left {factor : Nat} (positive : 0 < factor) (dividend divisor : Nat) :
    roundedQuotient (factor * dividend) (factor * divisor) = roundedQuotient dividend divisor := by
  have twice : 2 * (factor * dividend % (factor * divisor)) = factor * (2 * (dividend % divisor)) := by
    rw [Nat.mul_mod_mul_left, Nat.mul_left_comm]
  simp only [roundedQuotient, twice, Nat.mul_div_mul_left _ _ positive, Nat.mul_lt_mul_left positive]

theorem roundedQuotient_mul_right (quotient : Nat) {divisor : Nat} (positive : 0 < divisor) :
    roundedQuotient (quotient * divisor) divisor = quotient := by
  simp only [roundedQuotient, Nat.mul_div_cancel quotient positive, Nat.mul_mod_left, Nat.mul_zero, positive, if_true]

theorem div_le_roundedQuotient (dividend divisor : Nat) : dividend / divisor ≤ roundedQuotient dividend divisor := by
  unfold roundedQuotient
  dsimp only
  split
  · exact Nat.le_refl _
  · split <;> omega

theorem roundedQuotient_le (dividend divisor : Nat) : roundedQuotient dividend divisor ≤ dividend / divisor + 1 := by
  unfold roundedQuotient
  dsimp only
  split
  · omega
  · split <;> omega

namespace Double

/-- A count of quanta whose binary digits behind the precision are zero. -/
def Precise (quanta : Nat) : Prop := 2 ^ (quanta.log2 + 1 - precision) ∣ quanta

/-- A finite number is below the limit and has no more binary digits than the precision. -/
inductive Fits : Double → Prop
  | nan : Fits nan
  | infinite (negative : Bool) : Fits (infinite negative)
  | finite (negative : Bool) {quanta : Nat} (below : quanta < quantaLimit) (precise : Precise quanta) :
      Fits (finite negative quanta)

theorem roundedQuanta_mul_left {factor : Nat} (positive : 0 < factor) (dividend divisor : Nat) :
    roundedQuanta (factor * dividend) (factor * divisor) = roundedQuanta dividend divisor := by
  simp only [roundedQuanta, Nat.mul_div_mul_left _ _ positive, Nat.mul_assoc, roundedQuotient_mul_left positive]

theorem roundedQuanta_congr {dividend divisor otherDividend otherDivisor : Nat} (positive : 0 < divisor)
    (otherPositive : 0 < otherDivisor) (same : dividend * otherDivisor = otherDividend * divisor) :
    roundedQuanta dividend divisor = roundedQuanta otherDividend otherDivisor := by
  calc roundedQuanta dividend divisor
      = roundedQuanta (otherDivisor * dividend) (otherDivisor * divisor) :=
        (roundedQuanta_mul_left otherPositive _ _).symm
    _ = roundedQuanta (divisor * otherDividend) (divisor * otherDivisor) := by
        rw [Nat.mul_comm otherDivisor dividend, same, Nat.mul_comm otherDividend, Nat.mul_comm otherDivisor]
    _ = roundedQuanta otherDividend otherDivisor := roundedQuanta_mul_left positive _ _

theorem roundedQuanta_of_lt_half {dividend divisor : Nat} (half : 2 * dividend < divisor) :
    roundedQuanta dividend divisor = 0 := by
  have none : dividend / divisor = 0 := Nat.div_eq_of_lt (by omega)
  have whole : dividend % divisor = dividend := Nat.mod_eq_of_lt (by omega)
  have unit : Nat.pow 2 (Nat.log2 0 + 1 - precision) = 1 := by decide
  simp only [roundedQuanta, none, unit, Nat.mul_one, roundedQuotient, whole, half, if_true]

theorem pow_le_roundedQuanta {dividend divisor exponent : Nat} (above : 2 ^ exponent ≤ dividend / divisor) :
    2 ^ exponent ≤ roundedQuanta dividend divisor := by
  have nonzero : dividend / divisor ≠ 0 := by
    have := Nat.two_pow_pos exponent
    omega
  generalize places : (dividend / divisor).log2 + 1 - precision = shift
  have inside : shift ≤ (dividend / divisor).log2 := by
    simp only [precision] at places
    omega
  have kept : 2 ^ ((dividend / divisor).log2 - shift) ≤ dividend / (divisor * 2 ^ shift) := by
    rw [← Nat.div_div_eq_div_mul, Nat.le_div_iff_mul_le (Nat.two_pow_pos shift), ← Nat.pow_add,
      Nat.sub_add_cancel inside]
    exact Nat.log2_self_le nonzero
  calc 2 ^ exponent ≤ 2 ^ (dividend / divisor).log2 :=
        Nat.pow_le_pow_right (by decide) ((Nat.le_log2 nonzero).mpr above)
    _ = 2 ^ ((dividend / divisor).log2 - shift) * 2 ^ shift := by rw [← Nat.pow_add, Nat.sub_add_cancel inside]
    _ ≤ roundedQuotient dividend (divisor * 2 ^ shift) * 2 ^ shift :=
        Nat.mul_le_mul_right _ (Nat.le_trans kept (div_le_roundedQuotient _ _))
    _ = roundedQuanta dividend divisor := by
        rw [roundedQuanta, places]
        rfl

theorem precise_of_le {digits : Nat} (few : digits ≤ 2 ^ precision) (shift : Nat) : Precise (digits * 2 ^ shift) := by
  rcases Nat.eq_zero_or_pos digits with rfl | positive
  · rw [Nat.zero_mul]
    exact Nat.dvd_zero _
  have nonzero : digits * 2 ^ shift ≠ 0 := Nat.ne_of_gt (Nat.mul_pos positive (Nat.two_pow_pos shift))
  rcases Nat.lt_or_eq_of_le few with less | rfl
  · have bound : (digits * 2 ^ shift).log2 < precision + shift := by
      rw [Nat.log2_lt nonzero, Nat.pow_add]
      exact Nat.mul_lt_mul_of_pos_right less (Nat.two_pow_pos shift)
    exact Nat.dvd_trans (Nat.pow_dvd_pow 2 (by omega)) (Nat.dvd_mul_left _ _)
  · -- The next power of two has a single digit, so one more zero behind it does no harm.
    rw [Precise, ← Nat.pow_add, Nat.log2_two_pow]
    exact Nat.pow_dvd_pow 2 (by simp only [precision]; omega)

theorem precise_roundedQuanta (dividend divisor : Nat) : Precise (roundedQuanta dividend divisor) := by
  generalize places : (dividend / divisor).log2 + 1 - precision = shift
  have below : dividend / divisor / 2 ^ shift < 2 ^ precision := by
    rw [Nat.div_lt_iff_lt_mul (Nat.two_pow_pos shift), ← Nat.pow_add]
    exact Nat.lt_of_lt_of_le Nat.lt_log2_self (Nat.pow_le_pow_right (by decide) (by omega))
  have few : roundedQuotient dividend (divisor * 2 ^ shift) ≤ 2 ^ precision := by
    have bound := roundedQuotient_le dividend (divisor * 2 ^ shift)
    rw [← Nat.div_div_eq_div_mul] at bound
    omega
  rw [roundedQuanta, places]
  exact precise_of_le few shift

/-- A precise count of quanta is not rounded. -/
theorem roundedQuanta_of_precise {quanta : Nat} (precise : Precise quanta) {divisor : Nat} (positive : 0 < divisor) :
    roundedQuanta (quanta * divisor) divisor = quanta := by
  unfold roundedQuanta
  rw [Nat.mul_div_cancel quanta positive]
  obtain ⟨digits, cut⟩ := precise
  generalize quanta.log2 + 1 - precision = shift at cut ⊢
  have whole : quanta * divisor = digits * (divisor * 2 ^ shift) := by
    rw [cut]
    ring
  calc roundedQuotient (quanta * divisor) (divisor * 2 ^ shift) * 2 ^ shift
      = roundedQuotient (digits * (divisor * 2 ^ shift)) (divisor * 2 ^ shift) * 2 ^ shift := by rw [whole]
    _ = digits * 2 ^ shift := by
        rw [roundedQuotient_mul_right digits (Nat.mul_pos positive (Nat.two_pow_pos shift))]
    _ = quanta := by rw [cut, Nat.mul_comm]

/-! ## The number of a decimal -/

/-- Each further zero of a power of ten makes up for three powers of two. -/
theorem quanta_le_ten_pow (places : Nat) : 2 ^ (3 * places + 4) * quantaOfOne ≤ 10 ^ (331 + places) := by
  induction places with
  | zero => decide +kernel
  | succ places ih =>
    calc 2 ^ (3 * (places + 1) + 4) * quantaOfOne = 8 * (2 ^ (3 * places + 4) * quantaOfOne) := by ring
      _ ≤ 10 * 10 ^ (331 + places) := Nat.mul_le_mul (by decide) ih
      _ = 10 ^ (331 + (places + 1)) := by rw [← Nat.add_assoc, Nat.pow_succ, Nat.mul_comm]

theorem quantaLimit_le_ten_pow : ∃ places ≤ 310, quantaLimit ≤ 10 ^ places * quantaOfOne :=
  ⟨310, Nat.le_refl _, by decide +kernel⟩

theorem quantaLimit_pos : 0 < quantaLimit := by decide +kernel

theorem quantaOfOne_pos : 0 < quantaOfOne := by decide +kernel

theorem quantaLimit_le_of_tooLarge {decimal : Decimal} (nonzero : decimal.coefficient ≠ 0)
    (large : tooLarge decimal = true) :
    quantaLimit ≤ roundedQuanta (decimal.dividend * quantaOfOne) decimal.divisor := by
  simp only [tooLarge, decide_eq_true_eq] at large
  have whole : decimal.divisor = 1 := by
    rw [Decimal.divisor, Int.toNat_eq_zero.mpr (by omega), Nat.pow_zero]
  -- The powers are named, since as numerals they have hundreds of digits.
  obtain ⟨exponent, limit⟩ : ∃ exponent, quantaLimit = 2 ^ exponent := ⟨2098, by decide +kernel⟩
  obtain ⟨places, few, enough⟩ := quantaLimit_le_ten_pow
  rw [limit]
  refine pow_le_roundedQuanta (limit ▸ ?_)
  calc quantaLimit ≤ 10 ^ places * quantaOfOne := enough
    _ ≤ 10 ^ decimal.exponent.toNat * quantaOfOne :=
        Nat.mul_le_mul_right _ (Nat.pow_le_pow_right (by decide) (by omega))
    _ ≤ decimal.dividend * quantaOfOne :=
        Nat.mul_le_mul_right _ (Nat.le_mul_of_pos_left _ (Nat.pos_of_ne_zero nonzero))
    _ = decimal.dividend * quantaOfOne / decimal.divisor := by rw [whole, Nat.div_one]

/-- What is told apart as too small is rounded to nothing. -/
theorem roundedQuanta_of_tooSmall {decimal : Decimal} (small : tooSmall decimal = true) :
    roundedQuanta (decimal.dividend * quantaOfOne) decimal.divisor = 0 := by
  simp only [tooSmall, decide_eq_true_eq] at small
  obtain ⟨places, many⟩ : ∃ places, (-decimal.exponent).toNat = 331 + places := Nat.exists_eq_add_of_le (by omega)
  have whole : decimal.dividend = decimal.coefficient := by
    rw [Decimal.dividend, Int.toNat_eq_zero.mpr (by omega), Nat.pow_zero, Nat.mul_one]
  refine roundedQuanta_of_lt_half ?_
  calc 2 * (decimal.dividend * quantaOfOne) = 2 * decimal.coefficient * quantaOfOne := by rw [whole, Nat.mul_assoc]
    _ < 2 * 2 ^ (decimal.coefficient.log2 + 1) * quantaOfOne :=
        Nat.mul_lt_mul_of_pos_right (Nat.mul_lt_mul_of_pos_left Nat.lt_log2_self (by decide)) quantaOfOne_pos
    _ = 2 ^ (decimal.coefficient.log2 + 2) * quantaOfOne := by rw [← Nat.pow_succ']
    _ ≤ 2 ^ (3 * places + 4) * quantaOfOne :=
        Nat.mul_le_mul_right _ (Nat.pow_le_pow_right (by decide) (by omega))
    _ ≤ decimal.divisor := by
        rw [Decimal.divisor, many]
        exact quanta_le_ten_pow places

theorem ofQuanta_zero (negative : Bool) : ofQuanta negative 0 = finite negative 0 :=
  if_pos quantaLimit_pos

/-- The number of a decimal is its quotient rounded, however large or small that is. -/
theorem ofDecimal_eq (negative : Bool) (decimal : Decimal) :
    ofDecimal negative decimal =
      ofQuanta negative (roundedQuanta (decimal.dividend * quantaOfOne) decimal.divisor) := by
  unfold ofDecimal
  split
  next zero =>
    have nothing : decimal.dividend * quantaOfOne = 0 := by rw [Decimal.dividend, zero, Nat.zero_mul, Nat.zero_mul]
    rw [nothing, roundedQuanta_of_lt_half decimal.divisor_pos, ofQuanta_zero]
  next nonzero =>
    split
    next large => exact (if_neg (Nat.not_lt.mpr (quantaLimit_le_of_tooLarge nonzero large))).symm
    next =>
      split
      next small => rw [roundedQuanta_of_tooSmall small, ofQuanta_zero]
      next => rfl

/-- Decimals of the same value stand for the same number. -/
theorem ofDecimal_congr {decimal other : Decimal} (same : decimal.Same other) (negative : Bool) :
    ofDecimal negative decimal = ofDecimal negative other := by
  have quanta : decimal.dividend * quantaOfOne * other.divisor = other.dividend * quantaOfOne * decimal.divisor := by
    rw [Nat.mul_right_comm, same, Nat.mul_right_comm]
  rw [ofDecimal_eq, ofDecimal_eq, roundedQuanta_congr decimal.divisor_pos other.divisor_pos quanta]

theorem fits_ofDecimal (negative : Bool) (decimal : Decimal) : (ofDecimal negative decimal).Fits := by
  rw [ofDecimal_eq]
  unfold ofQuanta
  split
  next below => exact .finite negative below (precise_roundedQuanta _ _)
  next => exact .infinite negative

/-! ## The shortest decimal -/

theorem accepts_coarsest (accepts : Decimal → Bool) {decimal : Decimal} (itself : accepts decimal = true)
    (coarser : Nat) : accepts (decimal.coarsest accepts coarser) = true := by
  induction coarser with
  | zero => exact itself
  | succ coarser ih =>
    rw [Decimal.coarsest]
    split
    next found => exact List.find?_some found
    next => exact ih

theorem exactDecimal_eq (quanta : Nat) :
    ∃ places : Nat, exactDecimal quanta = ⟨quanta * 5 ^ places, -places⟩ ∧ quantaOfOne = 2 ^ places := by
  have fives : Nat.pow 5 1074 = 5 ^ 1074 := by decide +kernel
  exact ⟨1074, congrArg (fun power => (⟨quanta * power, -1074⟩ : Decimal)) fives, by decide +kernel⟩

theorem dividend_exactDecimal (quanta : Nat) :
    (exactDecimal quanta).dividend * quantaOfOne = quanta * (exactDecimal quanta).divisor := by
  obtain ⟨places, exact, one⟩ := exactDecimal_eq quanta
  have none : (-(places : Int)).toNat = 0 := by omega
  rw [exact, one]
  simp only [Decimal.dividend, Decimal.divisor, none, Int.neg_neg, Int.toNat_natCast, Nat.pow_zero, Nat.mul_one,
    Nat.mul_assoc, ← Nat.mul_pow]

theorem ofDecimal_exactDecimal {negative : Bool} {quanta : Nat} (fits : (finite negative quanta).Fits) :
    ofDecimal false (exactDecimal quanta) = finite false quanta := by
  cases fits with
  | finite _ below precise =>
  rw [ofDecimal_eq, dividend_exactDecimal, roundedQuanta_of_precise precise (Decimal.divisor_pos _)]
  exact if_pos below

theorem ofDecimal_negative {decimal : Decimal} {quanta : Nat} (positive : ofDecimal false decimal = finite false quanta)
    (negative : Bool) : ofDecimal negative decimal = finite negative quanta := by
  rw [ofDecimal_eq] at positive ⊢
  unfold ofQuanta at positive ⊢
  split at positive
  next below =>
    cases positive
    exact if_pos below
  next => cases positive

theorem ofDecimal_shortest {negative : Bool} {quanta : Nat} (fits : (finite negative quanta).Fits) :
    ofDecimal negative (shortest quanta) = finite negative quanta := by
  unfold shortest
  split
  next zero =>
    subst zero
    rfl
  next =>
    have accepted := accepts_coarsest (fun decimal => ofDecimal false decimal = finite false quanta)
      (decide_eq_true (ofDecimal_exactDecimal fits)) ((Nat.toDigits 10 (exactDecimal quanta).coefficient).length - 1)
    exact ofDecimal_negative (of_decide_eq_true accepted) negative

theorem exponent_shortest {negative : Bool} {quanta : Nat} (fits : (finite negative quanta).Fits)
    (zero : (shortest quanta).coefficient = 0) : (shortest quanta).exponent = 0 := by
  have number := ofDecimal_shortest fits
  rw [ofDecimal, if_pos zero] at number
  cases number
  rfl

end Double
end LineCalc
