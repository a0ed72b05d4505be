import Mathlib.Analysis.Real.Sqrt
import Mathlib.Tactic.FieldSimp
import Overlay.Proofs.Binary64.Operations

/-!
Quotients and square roots of doubles.

Both are computed as whole numbers with enough bits first. What is left over then tells in which
half of the last unit the exact number lies, which is all that rounding needs.
-/

set_option autoImplicit false

namespace Overlay.Binary64

open Float.Model (Format UnpackedFloat totalExponent)
open Float.Model.UnpackedFloat

variable {left right : UnpackedFloat}

/-- A whole quotient and how the remainder lies to half of the divisor. -/
theorem stands_div (number : ℕ) {divisor : ℕ} (positive : 0 < divisor) :
    Stands (.ofMantissaAndAccuracy (number / divisor) (accuracyOfFraction (number % divisor)
      divisor)) (number / divisor : ℝ) := by
  have divisor_pos : (0 : ℝ) < divisor := by exact_mod_cast positive
  have parts : (number : ℝ) = divisor * (number / divisor : ℕ) + (number % divisor : ℕ) := by
    exact_mod_cast (Nat.div_add_mod number divisor).symm
  have short : ((number % divisor : ℕ) : ℝ) < divisor := by
    exact_mod_cast Nat.mod_lt number positive
  have rest_nonneg : (0 : ℝ) ≤ (number % divisor : ℕ) := Nat.cast_nonneg _
  rw [accuracyOfFraction, parts, add_div, mul_div_cancel_left₀ _ divisor_pos.ne']
  split
  · next none =>
      rw [none, Nat.cast_zero, zero_div, add_zero]
      exact stands_exact _
  · rcases lt_trichotomy (2 * (number % divisor)) divisor with below | middle | above
    · rw [compare_lt_iff_lt.mpr below]
      have below : 2 * ((number % divisor : ℕ) : ℝ) < divisor := by exact_mod_cast below
      refine stands_below (by linarith [div_nonneg rest_nonneg divisor_pos.le]) ?_
      rw [add_lt_add_iff_left, div_lt_iff₀ divisor_pos]
      linarith
    · rw [compare_eq_iff_eq.mpr middle]
      have middle : 2 * ((number % divisor : ℕ) : ℝ) = divisor := by exact_mod_cast middle
      refine stands_middle ?_
      rw [add_right_inj, div_eq_iff divisor_pos.ne']
      linarith
    · rw [compare_gt_iff_gt.mpr above]
      have above : (divisor : ℝ) < 2 * ((number % divisor : ℕ) : ℝ) := by exact_mod_cast above
      refine stands_above ?_ ?_
      · rw [add_lt_add_iff_left, lt_div_iff₀ divisor_pos]
        linarith
      · rw [add_lt_add_iff_left, div_lt_one divisor_pos]
        exact short

/-- A quotient is written with so small an exponent that there are enough bits for rounding. -/
theorem ample_div {mantissaLeft mantissaRight : ℕ} (exponent : ℤ) (positiveLeft : 0 < mantissaLeft)
    (positiveRight : 0 < mantissaRight) {target : ℤ}
    (least : target ≤ max (mantissaLeft.log2 - mantissaRight.log2 + exponent - 53) (-1074)) :
    Ample ((mantissaLeft <<< (exponent - target).toNat) / mantissaRight) target := by
  rcases le_max_iff.mp least with bits | small
  · right
    have places : mantissaRight.log2 + 1 + 52 ≤
        mantissaLeft.log2 + (exponent - target).toNat := by omega
    rw [Nat.le_div_iff_mul_le positiveRight]
    calc 2 ^ 52 * mantissaRight ≤ 2 ^ 52 * 2 ^ (mantissaRight.log2 + 1) :=
          Nat.mul_le_mul_left _ Nat.lt_log2_self.le
      _ = 2 ^ (mantissaRight.log2 + 1 + 52) := by
          rw [Nat.pow_add 2 (mantissaRight.log2 + 1), Nat.mul_comm]
      _ ≤ 2 ^ (mantissaLeft.log2 + (exponent - target).toNat) :=
          Nat.pow_le_pow_right (by norm_num) places
      _ ≤ mantissaLeft <<< (exponent - target).toNat := two_pow_le_shiftLeft _ positiveLeft
  · exact Or.inl small

theorem targetExponent_sub (mantissaLeft mantissaRight : ℕ) (exponentLeft exponentRight : ℤ) :
    Format.binary64.targetExponent
        (totalExponent mantissaLeft exponentLeft - totalExponent mantissaRight exponentRight) =
      max (mantissaLeft.log2 - mantissaRight.log2 + (exponentLeft - exponentRight) - 53)
        (-1074) := by
  rw [targetExponent_eq_max, totalExponent, totalExponent]
  congr 1
  omega

theorem rounds_div (finiteLeft : left.isFinite) (finiteRight : right.isFinite)
    (some : real right ≠ 0) :
    Rounds (real left / real right) (settle (UnpackedFloat.div .binary64 left right)) := by
  cases right with
  | infinity sign => cases finiteRight
  | notANumber => cases finiteRight
  | zero sign => exact absurd rfl some
  | finite signRight mantissaRight exponentRight positiveRight =>
      cases left with
      | infinity sign => cases finiteLeft
      | notANumber => cases finiteLeft
      | zero signLeft =>
          simp only [UnpackedFloat.div, real, zero_div]
          exact rounds_zero _
      | finite signLeft mantissaLeft exponentLeft positiveLeft =>
          simp only [UnpackedFloat.div, divCore, targetExponent_sub]
          generalize target_eq : Min.min (exponentLeft - exponentRight) _ = target
          have within : target ≤ exponentLeft - exponentRight := target_eq ▸ min_le_left _ _
          have ample := ample_div (exponentLeft - exponentRight) positiveLeft positiveRight
            (target_eq ▸ min_le_right _ _)
          generalize shift_eq : (exponentLeft - exponentRight - target).toNat = shift at *
          obtain rfl : target = exponentLeft - exponentRight - shift := by omega
          have dividend_pos : 0 < mantissaLeft <<< shift := Nat.shiftLeft_pos_iff.mpr positiveLeft
          have rounds := rounds_roundWithAccuracy (signLeft / signRight) ample (by positivity)
            (stands_div (mantissaLeft <<< shift) positiveRight)
          have quotient : real (.finite signLeft mantissaLeft exponentLeft positiveLeft) /
              real (.finite signRight mantissaRight exponentRight positiveRight) =
                unitOfSign (signLeft / signRight) *
                  (((mantissaLeft <<< shift : ℕ) / mantissaRight : ℝ) *
                    2 ^ (exponentLeft - exponentRight - shift)) := by
            rw [unitOfSign_div, div_mul_eq_mul_div ((mantissaLeft <<< shift : ℕ) : ℝ),
              shiftLeft_mul_zpow, zpow_sub₀ two_ne_zero, real, real]
            field_simp
          rw [quotient]
          exact rounds

/-- A whole root and how the remainder lies to the next half. -/
theorem stands_sqrt (number : ℕ) :
    Stands (.ofMantissaAndAccuracy number.sqrt
      (if number - number.sqrt * number.sqrt = 0 then .exact
        else .inexact (if number - number.sqrt * number.sqrt ≤ number.sqrt then .lt else .gt)))
      √(number : ℝ) := by
  have lower : number.sqrt * number.sqrt ≤ number := Nat.sqrt_le number
  have upper : number < (number.sqrt + 1) * (number.sqrt + 1) := Nat.lt_succ_sqrt number
  generalize number.sqrt = root at *
  have root_nonneg : (0 : ℝ) ≤ root := Nat.cast_nonneg root
  have low : (root : ℝ) * root ≤ number := by exact_mod_cast lower
  split
  · next none =>
      obtain rfl : number = root * root := by omega
      rw [Nat.cast_mul, Real.sqrt_mul_self root_nonneg]
      exact stands_exact root
  · split
    · next near =>
        have near : (number : ℝ) ≤ root * root + root := by
          exact_mod_cast (by omega : number ≤ root * root + root)
        refine stands_below (Real.le_sqrt_of_sq_le (by linarith [pow_two (root : ℝ)])) ?_
        rw [Real.sqrt_lt' (by linarith)]
        linarith [add_sq (root : ℝ) (1 / 2)]
    · next far =>
        have far : (root : ℝ) * root + root + 1 ≤ number := by
          exact_mod_cast (by omega : root * root + root + 1 ≤ number)
        have high : (number : ℝ) < (root + 1) * (root + 1) := by exact_mod_cast upper
        refine stands_above (Real.lt_sqrt_of_sq_lt ?_) ?_
        · linarith [add_sq (root : ℝ) (1 / 2)]
        · rw [Real.sqrt_lt' (by linarith)]
          linarith [pow_two (root + 1 : ℝ)]

theorem targetExponent_half (mantissa : ℕ) (exponent : ℤ) :
    Format.binary64.targetExponent ((totalExponent mantissa exponent + 1).ediv 2) =
      max ((mantissa.log2 + exponent + 2) / 2 - 53) (-1074) := by
  have half : (totalExponent mantissa exponent + 1).ediv 2 =
      (mantissa.log2 + exponent + 2) / 2 := by
    rw [totalExponent]
    change (mantissa.log2 + 1 + exponent + 1) / 2 = _
    congr 1
    omega
  rw [targetExponent_eq_max, half]

/-- A root is written with so small an exponent too. -/
theorem ample_sqrt {mantissa : ℕ} (exponent : ℤ) (positive : 0 < mantissa) {target : ℤ}
    (least : target ≤ max ((mantissa.log2 + exponent + 2) / 2 - 53) (-1074)) :
    Ample (mantissa <<< (exponent - 2 * target).toNat).sqrt target := by
  rcases le_max_iff.mp least with bits | small
  · right
    have places : 52 + 52 ≤ mantissa.log2 + (exponent - 2 * target).toNat := by omega
    rw [Nat.le_sqrt, ← Nat.pow_add]
    exact (Nat.pow_le_pow_right (by norm_num) places).trans (two_pow_le_shiftLeft _ positive)
  · exact Or.inl small

theorem rounds_sqrt (finite : left.isFinite) (nonneg : 0 ≤ real left) :
    Rounds √(real left) (settle (UnpackedFloat.sqrt .binary64 left)) := by
  cases left with
  | infinity sign => cases finite
  | notANumber => cases finite
  | zero sign =>
      simp only [UnpackedFloat.sqrt, real, Real.sqrt_zero]
      exact rounds_zero sign
  | finite sign mantissa exponent positive =>
      have magnitude_pos : (0 : ℝ) < mantissa * 2 ^ exponent := by positivity
      cases sign with
      | negative =>
          rw [real, unitOfSign, neg_one_mul] at nonneg
          linarith
      | positive =>
          simp only [UnpackedFloat.sqrt, sqrtCore, targetExponent_half]
          generalize target_eq : Min.min (exponent.ediv 2) _ = target
          have within : target ≤ exponent / 2 := target_eq ▸ min_le_left _ _
          have ample := ample_sqrt exponent positive (target_eq ▸ min_le_right _ _)
          generalize shift_eq : (exponent - 2 * target).toNat = shift at *
          obtain rfl : exponent = 2 * target + shift := by omega
          have radicand_pos : 0 < mantissa <<< shift := Nat.shiftLeft_pos_iff.mpr positive
          have rounds := rounds_roundWithAccuracy .positive ample (by positivity)
            (stands_sqrt (mantissa <<< shift))
          have root : √(real (.finite .positive mantissa (2 * target + shift) positive)) =
              unitOfSign .positive * (√(mantissa <<< shift : ℕ) * 2 ^ target) := by
            have square : (2 : ℝ) ^ (2 * target) = (2 ^ target) ^ 2 := by
              rw [mul_comm, zpow_mul, zpow_ofNat]
            have moved := shiftLeft_mul_zpow mantissa shift (2 * target + shift)
            rw [add_sub_cancel_right, square] at moved
            rw [real, unitOfSign, one_mul, one_mul, ← moved,
              Real.sqrt_mul (Nat.cast_nonneg _), Real.sqrt_sq (zpow_pos two_pos target).le]
          rw [root]
          exact rounds

end Overlay.Binary64
