import Overlay.Proofs.Binary64.Operations

/-!
Which results can be finite, how large they are, and how they compare.
-/

set_option autoImplicit false

namespace Overlay.Binary64

open Float.Model (Format UnpackedFloat)
open Float.Model.UnpackedFloat

section Finite

variable {left right : UnpackedFloat}

theorem settle_infinity (sign : Sign) : settle (.infinity sign) = .infinity sign :=
  (Settled.infinity sign).unpack_pack

theorem settle_notANumber : settle .notANumber = .notANumber := Settled.notANumber.unpack_pack

theorem finite_of_settle {number : UnpackedFloat} (finite : (settle number).isFinite) :
    number.isFinite := by
  cases number with
  | infinity sign => exact settle_infinity sign ▸ finite
  | notANumber => exact settle_notANumber ▸ finite
  | zero | finite => rfl

/-- What is infinite or no number does not become a number again in a sum. -/
theorem finite_of_add (finite : (settle (UnpackedFloat.add .binary64 left right)).isFinite) :
    left.isFinite ∧ right.isFinite := by
  have sum := finite_of_settle finite
  cases left <;> cases right <;> simp only [UnpackedFloat.add] at sum
  all_goals first | exact ⟨rfl, rfl⟩ | cases sum | (split at sum <;> cases sum)

theorem finite_of_sub (finite : (settle (UnpackedFloat.sub .binary64 left right)).isFinite) :
    left.isFinite ∧ right.isFinite := by
  rw [sub_eq_add_opposite] at finite
  exact isFinite_neg right ▸ finite_of_add finite

theorem finite_of_mul (finite : (settle (UnpackedFloat.mul .binary64 left right)).isFinite) :
    left.isFinite ∧ right.isFinite := by
  have product := finite_of_settle finite
  cases left <;> cases right <;> first | exact ⟨rfl, rfl⟩ | cases product

theorem finite_of_sqrt (finite : (settle (UnpackedFloat.sqrt .binary64 left)).isFinite) :
    left.isFinite := by
  have root := finite_of_settle finite
  cases left with
  | infinity sign => cases sign <;> cases root
  | notANumber => cases root
  | zero | finite => rfl

/-- No double is larger than the largest. -/
theorem Settled.abs_real_le (settled : Settled left) :
    |real left| ≤ 2 ^ (1024 : ℤ) - 2 ^ (971 : ℤ) := by
  have top : (2 ^ 53 - 1) * (2 : ℝ) ^ (971 : ℤ) = 2 ^ (1024 : ℤ) - 2 ^ (971 : ℤ) := by
    have power : (2 : ℝ) ^ (1024 : ℤ) = 2 ^ 53 * 2 ^ (971 : ℤ) := by
      rw [← zpow_natCast, ← zpow_add₀ two_ne_zero]
      norm_num
    rw [power, sub_mul, one_mul]
  have room : (0 : ℝ) ≤ (2 ^ 53 - 1) * 2 ^ (971 : ℤ) := by positivity
  cases settled with
  | infinity | notANumber =>
      rw [← top]
      change |(0 : ℝ)| ≤ _
      rw [abs_zero]
      exact room
  | assemble sign canonical fits =>
      next mantissa exponent =>
      have whole : (mantissa : ℝ) ≤ 2 ^ 53 - 1 := by
        have : (mantissa : ℝ) + 1 ≤ 2 ^ 53 := by exact_mod_cast canonical.short
        linarith
      have unit : (2 : ℝ) ^ exponent ≤ 2 ^ (971 : ℤ) := zpow_le_zpow_right₀ one_le_two fits
      rw [← top, real_assemble, abs_mul, abs_unitOfSign, one_mul, abs_of_nonneg (by positivity)]
      exact mul_le_mul whole unit (by positivity) (by norm_num)

/-- Only zero is smaller than the distance between the smallest doubles. -/
theorem Settled.le_abs_real (settled : Settled left) (some : real left ≠ 0) :
    2 ^ (-1074 : ℤ) ≤ |real left| := by
  cases settled with
  | infinity | notANumber => exact absurd rfl some
  | assemble sign canonical fits =>
      next mantissa exponent =>
      rw [real_assemble] at some ⊢
      have positive : 1 ≤ mantissa := by
        rw [Nat.one_le_iff_ne_zero]
        rintro rfl
        simp at some
      have unit : (2 : ℝ) ^ (-1074 : ℤ) ≤ 2 ^ exponent :=
        zpow_le_zpow_right₀ one_le_two canonical.least
      rw [abs_mul, abs_unitOfSign, one_mul, abs_of_nonneg (by positivity)]
      calc (2 : ℝ) ^ (-1074 : ℤ) ≤ 2 ^ exponent := unit
        _ ≤ mantissa * 2 ^ exponent :=
            le_mul_of_one_le_left (by positivity) (by exact_mod_cast positive)

end Finite

section Order

variable {mantissaLeft mantissaRight : ℕ} {exponentLeft exponentRight : ℤ}

/-- Of two doubles the one with the larger exponent is larger. -/
theorem Canonical.lt_of_exponent_lt (canonicalLeft : Canonical mantissaLeft exponentLeft)
    (canonicalRight : Canonical mantissaRight exponentRight) (below : exponentLeft < exponentRight) :
    (mantissaLeft : ℝ) * 2 ^ exponentLeft < mantissaRight * 2 ^ exponentRight := by
  have bits : 2 ^ 52 ≤ mantissaRight :=
    canonicalRight.full.resolve_left (by have := canonicalLeft.least; omega)
  have unit : (2 : ℝ) ^ (exponentLeft + 1) ≤ 2 ^ exponentRight :=
    zpow_le_zpow_right₀ one_le_two (by omega)
  calc (mantissaLeft : ℝ) * 2 ^ exponentLeft < 2 ^ 53 * 2 ^ exponentLeft :=
        mul_lt_mul_of_pos_right (by exact_mod_cast canonicalLeft.short) (by positivity)
    _ = 2 ^ 52 * 2 ^ (exponentLeft + 1) := by
        rw [zpow_add_one₀ two_ne_zero]
        ring
    _ ≤ mantissaRight * 2 ^ exponentRight :=
        mul_le_mul (by exact_mod_cast bits) unit (by positivity) (by positivity)

/-- Doubles of the same sign compare by their exponents first. -/
theorem Canonical.compare_eq_lt (canonicalLeft : Canonical mantissaLeft exponentLeft)
    (canonicalRight : Canonical mantissaRight exponentRight) :
    (compare exponentLeft exponentRight).then (compare mantissaLeft mantissaRight) = .lt ↔
      (mantissaLeft : ℝ) * 2 ^ exponentLeft < mantissaRight * 2 ^ exponentRight := by
  rcases lt_trichotomy exponentLeft exponentRight with below | rfl | above
  · have less := canonicalLeft.lt_of_exponent_lt canonicalRight below
    simp [compare_lt_iff_lt.mpr below, less]
  · have unit_pos : (0 : ℝ) < 2 ^ exponentLeft := by positivity
    rw [compare_eq_iff_eq.mpr rfl, Ordering.eq_then, compare_lt_iff_lt,
      mul_lt_mul_iff_left₀ unit_pos, Nat.cast_lt]
  · have greater := canonicalRight.lt_of_exponent_lt canonicalLeft above
    simp [compare_gt_iff_gt.mpr above, greater.le]

variable {left right : UnpackedFloat}

theorem lt_iff (settledLeft : Settled left) (settledRight : Settled right)
    (finiteLeft : left.isFinite) (finiteRight : right.isFinite) :
    UnpackedFloat.lt left right ↔ real left < real right := by
  have magnitude_pos {mantissa : ℕ} (exponent : ℤ) (positive : 0 < mantissa) :
      (0 : ℝ) < mantissa * 2 ^ exponent := by positivity
  cases left with
  | infinity | notANumber => cases finiteLeft
  | zero signLeft =>
      cases right with
      | infinity | notANumber => cases finiteRight
      | zero signRight => simp [UnpackedFloat.lt, UnpackedFloat.compare, real]
      | finite signRight mantissaRight exponentRight positiveRight =>
          have := magnitude_pos exponentRight positiveRight
          cases signRight
          · simp [UnpackedFloat.lt, UnpackedFloat.compare, real, unitOfSign, this.le]
          · simp [UnpackedFloat.lt, UnpackedFloat.compare, real, unitOfSign, this]
  | finite signLeft mantissaLeft exponentLeft positiveLeft =>
      have := magnitude_pos exponentLeft positiveLeft
      cases right with
      | infinity | notANumber => cases finiteRight
      | zero signRight =>
          cases signLeft
          · simp [UnpackedFloat.lt, UnpackedFloat.compare, real, unitOfSign, this]
          · simp [UnpackedFloat.lt, UnpackedFloat.compare, real, unitOfSign, this.le]
      | finite signRight mantissaRight exponentRight positiveRight =>
          have positive := magnitude_pos exponentRight positiveRight
          have canonicalLeft := (settledLeft.canonical rfl).1
          have canonicalRight := (settledRight.canonical rfl).1
          cases signLeft <;> cases signRight
          · simp only [UnpackedFloat.lt, UnpackedFloat.compare, real, unitOfSign, neg_one_mul,
              neg_lt_neg_iff, ← canonicalRight.compare_eq_lt canonicalLeft, Ordering.swap_then,
              Int.compare_swap, Nat.compare_swap, beq_iff_eq, Option.some_inj]
          · have less := (neg_lt_zero.mpr this).trans positive
            simp [UnpackedFloat.lt, UnpackedFloat.compare, real, unitOfSign, less]
          · have greater := (neg_lt_zero.mpr positive).trans this
            simp [UnpackedFloat.lt, UnpackedFloat.compare, real, unitOfSign, greater.le]
          · simp only [UnpackedFloat.lt, UnpackedFloat.compare, real, unitOfSign, one_mul,
              ← canonicalLeft.compare_eq_lt canonicalRight, beq_iff_eq, Option.some_inj]

end Order

end Overlay.Binary64
