import Overlay.Scalar
import Overlay.Proofs.Binary64.Order
import Overlay.Proofs.Binary64.Quotient

/-!
The doubles that a program computes with, as numbers.

Results stand for the exact numbers (`add_rounds` and so on). A bound on the magnitude by a power of
two therefore goes through every operation (`Within`).
-/

set_option autoImplicit false

namespace Overlay

open Float.Model (Format UnpackedFloat)

namespace Binary64

/-- The sign, mantissa and exponent that the bits stand for. -/
def unpacked (number : Binary64) : UnpackedFloat :=
  UnpackedFloat.unpack .binary64 number.bits.toBitVec

/-- The number itself; zero for what is infinite or no number. -/
noncomputable def value (number : Binary64) : ℝ := real number.unpacked

variable {left right number : Binary64}

theorem settled_unpacked (number : Binary64) : Settled number.unpacked :=
  settled_unpack number.bits.toBitVec

theorem unpack_toFloat (number : Binary64) : number.toFloat.toModel.unpack = number.unpacked :=
  (settled_unpacked number).unpack_pack

theorem unpacked_add (left right : Binary64) : (left + right).unpacked =
    settle (UnpackedFloat.add .binary64 left.unpacked right.unpacked) := by
  rw [← unpack_toFloat left, ← unpack_toFloat right]
  rfl

theorem unpacked_sub (left right : Binary64) : (left - right).unpacked =
    settle (UnpackedFloat.sub .binary64 left.unpacked right.unpacked) := by
  rw [← unpack_toFloat left, ← unpack_toFloat right]
  rfl

theorem unpacked_mul (left right : Binary64) : (left * right).unpacked =
    settle (UnpackedFloat.mul .binary64 left.unpacked right.unpacked) := by
  rw [← unpack_toFloat left, ← unpack_toFloat right]
  rfl

theorem unpacked_div (left right : Binary64) : (left / right).unpacked =
    settle (UnpackedFloat.div .binary64 left.unpacked right.unpacked) := by
  rw [← unpack_toFloat left, ← unpack_toFloat right]
  rfl

theorem unpacked_sqrt (number : Binary64) : number.sqrt.unpacked =
    settle (UnpackedFloat.sqrt .binary64 number.unpacked) := by
  rw [← unpack_toFloat number]
  rfl

theorem unpacked_abs (number : Binary64) : number.abs.unpacked =
    settle number.unpacked.abs := by
  rw [← unpack_toFloat number]
  rfl

/-- The exponent bits, read in two ways. -/
theorem exponentField_eq (number : Binary64) : number.exponentField =
    (@UnpackedFloat.unpackExponent .binary64 number.bits.toBitVec).toNat := by
  have shifted : (@UnpackedFloat.unpackExponent .binary64 number.bits.toBitVec).toNat =
      number.bits.toNat >>> 52 % 2 ^ 11 := BitVec.extractLsb_toNat 62 52 number.bits.toBitVec
  rw [shifted, Nat.shiftRight_eq_div_pow]
  rfl

theorem isFinite_eq (number : Binary64) : number.isFinite = number.unpacked.isFinite := by
  have full : number.exponentField = 2047 ↔
      @UnpackedFloat.unpackExponent .binary64 number.bits.toBitVec = -1#_ := by
    rw [exponentField_eq, ← BitVec.toNat_inj]
    rfl
  simp only [isFinite, unpacked, UnpackedFloat.unpack]
  split
  · next infinite =>
      rw [full.mpr infinite]
      split <;> rfl
  · next finite =>
      rw [bne_iff_ne.mpr (mt full.mp finite)]
      split
      · split <;> rfl
      · rfl

theorem lt_eq (left right : Binary64) :
    left.lt right = UnpackedFloat.lt left.unpacked right.unpacked := by
  rw [← unpack_toFloat left, ← unpack_toFloat right, Bool.eq_iff_iff, lt, decide_eq_true_iff]
  exact decide_eq_true_iff

/-- Finite doubles are ordered as numbers. -/
theorem lt_iff_value_lt (finiteLeft : left.isFinite) (finiteRight : right.isFinite) :
    left.lt right ↔ left.value < right.value := by
  rw [isFinite_eq] at finiteLeft finiteRight
  rw [lt_eq]
  exact lt_iff (settled_unpacked left) (settled_unpacked right) finiteLeft finiteRight

section Rounds

variable (finiteLeft : left.isFinite) (finiteRight : right.isFinite) (finite : number.isFinite)

include finiteLeft finiteRight in
theorem add_rounds : Rounds (left.value + right.value) (left + right).unpacked := by
  rw [isFinite_eq] at finiteLeft finiteRight
  rw [unpacked_add]
  exact rounds_add (settled_unpacked left) (settled_unpacked right) finiteLeft finiteRight

include finiteLeft finiteRight in
theorem sub_rounds : Rounds (left.value - right.value) (left - right).unpacked := by
  rw [isFinite_eq] at finiteLeft finiteRight
  rw [unpacked_sub]
  exact rounds_sub (settled_unpacked left) (settled_unpacked right) finiteLeft finiteRight

include finiteLeft finiteRight in
theorem mul_rounds : Rounds (left.value * right.value) (left * right).unpacked := by
  rw [isFinite_eq] at finiteLeft finiteRight
  rw [unpacked_mul]
  exact rounds_mul (settled_unpacked left) (settled_unpacked right) finiteLeft finiteRight

include finiteLeft finiteRight in
theorem div_rounds (some : right.value ≠ 0) :
    Rounds (left.value / right.value) (left / right).unpacked := by
  rw [isFinite_eq] at finiteLeft finiteRight
  rw [unpacked_div]
  exact rounds_div finiteLeft finiteRight some

include finite in
theorem sqrt_rounds (nonneg : 0 ≤ number.value) :
    Rounds √number.value number.sqrt.unpacked := by
  rw [isFinite_eq] at finite
  rw [unpacked_sqrt]
  exact rounds_sqrt finite nonneg

end Rounds

theorem isFinite_of_add (finite : (left + right).isFinite) : left.isFinite ∧ right.isFinite := by
  rw [isFinite_eq, unpacked_add] at finite
  rw [isFinite_eq, isFinite_eq]
  exact finite_of_add finite

theorem isFinite_of_sub (finite : (left - right).isFinite) : left.isFinite ∧ right.isFinite := by
  rw [isFinite_eq, unpacked_sub] at finite
  rw [isFinite_eq, isFinite_eq]
  exact finite_of_sub finite

theorem isFinite_of_mul (finite : (left * right).isFinite) : left.isFinite ∧ right.isFinite := by
  rw [isFinite_eq, unpacked_mul] at finite
  rw [isFinite_eq, isFinite_eq]
  exact finite_of_mul finite

theorem isFinite_of_sqrt (finite : number.sqrt.isFinite) : number.isFinite := by
  rw [isFinite_eq, unpacked_sqrt] at finite
  rw [isFinite_eq]
  exact finite_of_sqrt finite

/-- A finite double with a bound on its magnitude. -/
structure Within (power : ℤ) (number : Binary64) : Prop where
  finite : number.isFinite
  abs_le : |number.value| ≤ 2 ^ power

section Within

variable {power other : ℤ}

theorem Within.mono (within : Within power number) (wider : power ≤ other) :
    Within other number :=
  ⟨within.finite, within.abs_le.trans (zpow_le_zpow_right₀ one_le_two wider)⟩

/-- A bound that a double can have. -/
def Bound (power : ℤ) : Prop := -1074 ≤ power ∧ power ≤ 1023

instance (power : ℤ) : Decidable (Bound power) :=
  inferInstanceAs (Decidable (-1074 ≤ power ∧ power ≤ 1023))

theorem within_of_rounds {exact : ℝ} (rounds : Rounds exact number.unpacked)
    (bound : Bound power) (abs_le : |exact| ≤ 2 ^ power) : Within power number := by
  have small : |exact| < 2 ^ (1024 : ℤ) - 2 ^ (970 : ℤ) := by
    have power_le : (2 : ℝ) ^ power ≤ 2 ^ (1023 : ℤ) := zpow_le_zpow_right₀ one_le_two bound.2
    have top : (2 : ℝ) ^ (1024 : ℤ) = 2 ^ (1023 : ℤ) + 2 ^ (1023 : ℤ) := by
      rw [← two_mul, ← zpow_one_add₀ two_ne_zero]
      norm_num
    have room : (2 : ℝ) ^ (970 : ℤ) < 2 ^ (1023 : ℤ) :=
      zpow_lt_zpow_right₀ one_lt_two (by norm_num)
    rw [top]
    generalize (2 : ℝ) ^ (1023 : ℤ) = half at *
    generalize (2 : ℝ) ^ (970 : ℤ) = place at *
    linarith
  have finite := rounds.finite small
  exact ⟨(isFinite_eq number).trans finite, rounds.le finite power bound.1 abs_le⟩

theorem Within.add (withinLeft : Within power left) (withinRight : Within power right)
    (bound : Bound (power + 1)) : Within (power + 1) (left + right) := by
  refine within_of_rounds (add_rounds withinLeft.finite withinRight.finite) bound ?_
  rw [zpow_add_one₀ two_ne_zero]
  have sum := abs_add_le left.value right.value
  linarith [withinLeft.abs_le, withinRight.abs_le]

theorem Within.sub (withinLeft : Within power left) (withinRight : Within power right)
    (bound : Bound (power + 1)) : Within (power + 1) (left - right) := by
  refine within_of_rounds (sub_rounds withinLeft.finite withinRight.finite) bound ?_
  rw [zpow_add_one₀ two_ne_zero]
  have difference := abs_sub left.value right.value
  linarith [withinLeft.abs_le, withinRight.abs_le]

theorem Within.mul (withinLeft : Within power left) (withinRight : Within other right)
    (bound : Bound (power + other)) : Within (power + other) (left * right) := by
  refine within_of_rounds (mul_rounds withinLeft.finite withinRight.finite) bound ?_
  rw [zpow_add₀ two_ne_zero, abs_mul]
  exact mul_le_mul withinLeft.abs_le withinRight.abs_le (abs_nonneg _) (zpow_pos two_pos _).le

theorem Within.div (within : Within power left) (finite : right.isFinite)
    (above : 2 ^ other ≤ |right.value|) (bound : Bound (power - other)) :
    Within (power - other) (left / right) := by
  have other_pos : (0 : ℝ) < 2 ^ other := zpow_pos two_pos other
  have some : right.value ≠ 0 := abs_pos.mp (other_pos.trans_le above)
  refine within_of_rounds (div_rounds within.finite finite some) bound ?_
  rw [zpow_sub₀ two_ne_zero, abs_div]
  exact div_le_div₀ (zpow_pos two_pos power).le within.abs_le other_pos above

theorem Within.abs (within : Within power number) : Within power number.abs := by
  have settled : Settled number.unpacked.abs := (settled_unpacked number).abs
  constructor
  · rw [isFinite_eq, unpacked_abs, settled.settle_eq, isFinite_abs, ← isFinite_eq]
    exact within.finite
  · rw [value, unpacked_abs, settled.settle_eq, abs_real_abs]
    exact within.abs_le

/-- What is smaller than the last place of the largest double can be added to any double. -/
theorem Within.isFinite_add (finite : left.isFinite) (within : Within power right)
    (small : power < 970) : (left + right).isFinite := by
  have below : |left.value + right.value| < 2 ^ (1024 : ℤ) - 2 ^ (970 : ℤ) := by
    have largest := (settled_unpacked left).abs_real_le
    rw [← value, top_powers.1] at largest
    have place : (2 : ℝ) ^ power < 2 ^ (970 : ℤ) := zpow_lt_zpow_right₀ one_lt_two small
    have sum := abs_add_le left.value right.value
    have addend := within.abs_le
    generalize (2 : ℝ) ^ (1024 : ℤ) = limit at *
    generalize (2 : ℝ) ^ (970 : ℤ) = half at *
    linarith only [sum, largest, addend, place]
  exact (isFinite_eq _).trans ((add_rounds finite within.finite).finite below)

end Within

end Binary64

end Overlay
