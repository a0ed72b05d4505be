import Overlay.Proofs.Binary64.Arithmetic

/-!
The order of doubles and the order of their bits.

Of two finite doubles of the same sign, the bits without the sign compare as the magnitudes do,
since they hold the exponent before the mantissa (`magnitude_lt_iff`). The total order of the bit
patterns therefore goes on from the order of the numbers (`orderKey_lt_of_lt`), and no two patterns
stand in one place of it (`orderKey_inj`).
-/

set_option autoImplicit false

namespace Overlay.Binary64

open Float.Model (Format UnpackedFloat)
open Float.Model.UnpackedFloat

variable {left right number : Binary64}

/-- The fraction bits, read in two ways. -/
theorem fractionField_eq (number : Binary64) : number.fractionField =
    (@UnpackedFloat.unpackMantissa .binary64 number.bits.toBitVec).toNat := by
  have shifted : (@UnpackedFloat.unpackMantissa .binary64 number.bits.toBitVec).toNat =
      number.bits.toNat >>> 0 % 2 ^ 52 := BitVec.extractLsb_toNat 51 0 number.bits.toBitVec
  rw [shifted, Nat.shiftRight_zero]
  rfl

/-- The sign of a double; zeros have one too. -/
def sign (number : Binary64) : Sign := if number.isNegative then .negative else .positive

/-- The sign bit, read in two ways. -/
theorem sign_eq (number : Binary64) : number.sign =
    Sign.ofBitVec (@UnpackedFloat.unpackSign .binary64 number.bits.toBitVec) := by
  have shifted : (@UnpackedFloat.unpackSign .binary64 number.bits.toBitVec).toNat =
      number.bits.toNat >>> 63 % 2 ^ 1 := BitVec.extractLsb_toNat 63 63 number.bits.toBitVec
  have positive : @UnpackedFloat.unpackSign .binary64 number.bits.toBitVec = 0#1 ↔
      ¬ number.isNegative := by
    have small := number.bits.toNat_lt
    rw [isNegative, decide_eq_true_iff, UInt64.le_iff_toNat_le, ← BitVec.toNat_inj, shifted,
      Nat.shiftRight_eq_div_pow]
    change number.bits.toNat / 2 ^ 63 % 2 ^ 1 = 0 ↔ ¬ 2 ^ 63 ≤ number.bits.toNat
    omega
  rw [sign, Sign.ofBitVec]
  simp only [positive, ite_not]

/-- The bits are those of the three fields. -/
theorem packComponents_unpack (bits : BitVec 64) :
    packComponents .binary64 (Sign.ofBitVec (@UnpackedFloat.unpackSign .binary64 bits))
      (@UnpackedFloat.unpackExponent .binary64 bits)
      (@UnpackedFloat.unpackMantissa .binary64 bits) = bits := by
  have back (bit : BitVec 1) : (Sign.ofBitVec bit).toBitVec = bit := by
    revert bit
    decide
  simp only [packComponents, back, unpackSign, unpackExponent, unpackMantissa, BitVec.extractLsb]
  ext place within
  grind

/-- What the fields of a finite double say. -/
theorem unpacked_of_isFinite (finite : number.isFinite) : number.unpacked =
    assemble number.sign number.mantissa number.exponent := by
  have notFull : @UnpackedFloat.unpackExponent .binary64 number.bits.toBitVec ≠ -1#_ := by
    intro full
    rw [isFinite, exponentField_eq, full] at finite
    exact absurd finite (by decide)
  have zero : @UnpackedFloat.unpackExponent .binary64 number.bits.toBitVec = 0#_ ↔
      number.exponentField = 0 := by
    rw [exponentField_eq, ← BitVec.toNat_inj]
    rfl
  rw [unpacked, ← packComponents_unpack number.bits.toBitVec, unpack_packComponents,
    if_neg notFull, ← sign_eq, ← fractionField_eq, ← exponentField_eq]
  by_cases subnormal : number.exponentField = 0
  · rw [if_pos (zero.mpr subnormal), mantissa, if_pos subnormal, exponent, subnormal]
    rfl
  · have leading : Nat.pow 2 52 + number.fractionField ≠ 0 := by
      rw [Nat.pow_eq]
      omega
    rw [if_neg (mt zero.mp subnormal), mantissa, if_neg subnormal, exponent, assemble,
      dif_neg leading]
    congr
    omega

/-- The bits without the sign. -/
def magnitude (number : Binary64) : ℕ := number.bits.toNat % 2 ^ 63

theorem magnitude_lt (number : Binary64) : number.magnitude < 2 ^ 63 :=
  Nat.mod_lt _ (Nat.two_pow_pos 63)

theorem magnitude_eq (number : Binary64) :
    number.magnitude = number.exponentField * 2 ^ 52 + number.fractionField := by
  change number.bits.toNat % 2 ^ 63 =
    number.bits.toNat / 2 ^ 52 % 2 ^ 11 * 2 ^ 52 + number.bits.toNat % 2 ^ 52
  omega

theorem orderKey_eq (number : Binary64) : number.orderKey =
    if number.isNegative then 2 ^ 63 - 1 - number.magnitude else 2 ^ 63 + number.magnitude := by
  have small := number.bits.toNat_lt
  have negative : number.isNegative ↔ 2 ^ 63 ≤ number.bits.toNat := by
    rw [isNegative, decide_eq_true_iff, UInt64.le_iff_toNat_le]
    rfl
  rw [orderKey, magnitude]
  split
  · next below =>
      have := negative.mp below
      rw [UInt64.size]
      omega
  · next above =>
      have := mt negative.mpr above
      change 2 ^ 63 + number.bits.toNat = _
      omega

theorem bits_eq (number : Binary64) : number.bits.toNat =
    if number.isNegative then 2 ^ 63 + number.magnitude else number.magnitude := by
  have small := number.bits.toNat_lt
  have negative : number.isNegative ↔ 2 ^ 63 ≤ number.bits.toNat := by
    rw [isNegative, decide_eq_true_iff, UInt64.le_iff_toNat_le]
    rfl
  simp only [negative, magnitude]
  split <;> omega

theorem orderKey_inj (same : left.orderKey = right.orderKey) : left = right := by
  have smallLeft := left.magnitude_lt
  have smallRight := right.magnitude_lt
  have bits : left.bits.toNat = right.bits.toNat := by
    rw [orderKey_eq, orderKey_eq] at same
    rw [bits_eq, bits_eq]
    split at same <;> split at same <;> simp_all <;> omega
  cases left
  cases right
  exact congrArg Binary64.mk (UInt64.toNat_inj.mp bits)

/-- The bits as a whole number, where the negative ones come below zero in the order of the
magnitudes turned round. -/
def signed (number : Binary64) : ℤ :=
  if number.isNegative then -(number.magnitude + 1) else number.magnitude

theorem orderKey_eq_signed (number : Binary64) :
    (number.orderKey : ℤ) = 2 ^ 63 + number.signed := by
  have small := number.magnitude_lt
  rw [orderKey_eq, signed]
  split <;> omega

theorem canonical_fields (number : Binary64) : Canonical number.mantissa number.exponent := by
  have short : number.fractionField < 2 ^ 52 := Nat.mod_lt _ (Nat.two_pow_pos 52)
  simp only [mantissa, exponent, Nat.pow_eq]
  by_cases subnormal : number.exponentField = 0
  · rw [if_pos subnormal]
    refine ⟨?_, ?_, Or.inl ?_⟩ <;> omega
  · rw [if_neg subnormal]
    refine ⟨?_, ?_, Or.inr ?_⟩ <;> omega

/-- The bits hold the exponent before the mantissa, as the magnitudes compare. -/
theorem magnitude_lt_iff : left.magnitude < right.magnitude ↔
    (left.mantissa : ℝ) * 2 ^ left.exponent < right.mantissa * 2 ^ right.exponent := by
  have shortLeft : left.fractionField < 2 ^ 52 := Nat.mod_lt _ (Nat.two_pow_pos 52)
  have shortRight : right.fractionField < 2 ^ 52 := Nat.mod_lt _ (Nat.two_pow_pos 52)
  rw [← (canonical_fields left).compare_eq_lt (canonical_fields right), magnitude_eq, magnitude_eq,
    Ordering.then_eq_lt, compare_lt_iff_lt, compare_eq_iff_eq, compare_lt_iff_lt]
  simp only [mantissa, exponent, Nat.pow_eq]
  split <;> split <;> omega

theorem value_eq (finite : number.isFinite) : number.value =
    unitOfSign number.sign * (number.mantissa * 2 ^ number.exponent) := by
  rw [value, unpacked_of_isFinite finite, real_assemble]

/-- The finite doubles in the order of the numbers are in the order of the bit patterns. -/
theorem orderKey_lt_of_lt (finiteLeft : left.isFinite) (finiteRight : right.isFinite)
    (below : left.lt right) : left.orderKey < right.orderKey := by
  have shortLeft := left.magnitude_lt
  have shortRight := right.magnitude_lt
  have nonneg (number : Binary64) : (0 : ℝ) ≤ number.mantissa * 2 ^ number.exponent := by
    positivity
  rw [lt_iff_value_lt finiteLeft finiteRight, value_eq finiteLeft, value_eq finiteRight, sign,
    sign] at below
  rw [orderKey_eq, orderKey_eq]
  by_cases negativeLeft : left.isNegative <;> by_cases negativeRight : right.isNegative
  · simp only [negativeLeft, negativeRight, if_true, unitOfSign, neg_one_mul,
      neg_lt_neg_iff] at below ⊢
    have := magnitude_lt_iff.mpr below
    omega
  · simp only [negativeLeft, negativeRight, if_true, if_false, Bool.false_eq_true]
    omega
  · simp only [negativeLeft, negativeRight, if_true, if_false, Bool.false_eq_true, unitOfSign,
      neg_one_mul, one_mul] at below
    have := nonneg left
    have := nonneg right
    linarith
  · simp only [negativeLeft, negativeRight, if_false, Bool.false_eq_true, unitOfSign,
      one_mul] at below ⊢
    have := magnitude_lt_iff.mpr below
    omega

theorem orderKey_lt_infinity (finite : number.isFinite) : number.orderKey < infinity.orderKey := by
  have below : number.magnitude < 2047 * 2 ^ 52 := by
    have narrow : number.exponentField < 2 ^ 11 := Nat.mod_lt _ (Nat.two_pow_pos 11)
    have short : number.fractionField < 2 ^ 52 := Nat.mod_lt _ (Nat.two_pow_pos 52)
    have notFull : number.exponentField ≠ 2047 := by simpa [isFinite] using finite
    rw [magnitude_eq]
    omega
  rw [orderKey_eq, show infinity.orderKey = 2 ^ 63 + 2047 * 2 ^ 52 by decide]
  split <;> omega

/-- Nothing is beyond infinity. -/
theorem not_infinity_lt (number : Binary64) : infinity.lt number = false := by
  rw [lt_eq, show infinity.unpacked = .infinity .positive from rfl, UnpackedFloat.lt]
  cases number.unpacked with
  | infinity sign => cases sign <;> rfl
  | notANumber | zero | finite => rfl

/-- Nothing is below minus infinity. -/
theorem not_lt_negativeInfinity (number : Binary64) : number.lt negativeInfinity = false := by
  rw [lt_eq, show negativeInfinity.unpacked = .infinity .negative from rfl, UnpackedFloat.lt]
  cases number.unpacked with
  | infinity sign => cases sign <;> rfl
  | notANumber | zero | finite => rfl

end Overlay.Binary64
