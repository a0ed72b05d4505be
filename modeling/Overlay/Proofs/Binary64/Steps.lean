import Overlay.Proofs.Binary64.Keys

/-!
Doubles and the ones next to them.

A double that is not among the smallest is one unit above another one (`exists_step`). What is
rounded to it is not below the middle between the two (`Step.le_exact`), and a fraction of it that
is less than one is rounded to the lower one at most (`Step.fraction_le`).
-/

set_option autoImplicit false

namespace Overlay.Binary64

open Float.Model (UnpackedFloat)
open Float.Model.UnpackedFloat

variable {number : Binary64}

/-- The number is a double, and so are the `count` units below it, each a power of two. -/
structure Step (count : ℕ) (power : ℤ) (number : ℝ) : Prop where
  full : 2 ^ 52 ≤ count
  short : count < 2 ^ 53
  least : -1074 ≤ power
  eq : number = (count + 1) * 2 ^ power

theorem abs_value_eq (finite : number.isFinite) :
    |number.value| = number.mantissa * 2 ^ number.exponent := by
  rw [value_eq finite, abs_mul, abs_unitOfSign, one_mul, abs_of_nonneg (by positivity)]

/-- A bound for all doubles that have a step below them. -/
theorem exists_step (finite : number.isFinite) (large : 2 ^ (-1000 : ℤ) ≤ |number.value|) :
    ∃ count power, Step count power |number.value| := by
  have canonical := canonical_fields number
  rw [abs_value_eq finite] at large ⊢
  generalize number.mantissa = mantissa at *
  generalize number.exponent = exponent at *
  have short : (mantissa : ℝ) < 2 ^ 53 := by exact_mod_cast canonical.short
  have power : -1053 < exponent := by
    have below : (2 : ℝ) ^ (-1000 : ℤ) < 2 ^ (exponent + 53) := by
      refine large.trans_lt ?_
      rw [zpow_add₀ two_ne_zero, mul_comm]
      exact mul_lt_mul_of_pos_left short (zpow_pos two_pos exponent)
    have := (zpow_lt_zpow_iff_right₀ one_lt_two).mp below
    omega
  have full : 2 ^ 52 ≤ mantissa := canonical.full.resolve_left (by omega)
  rcases full.eq_or_lt with rfl | more
  · refine ⟨2 ^ 53 - 1, exponent - 1, by norm_num, by norm_num, by omega, ?_⟩
    have half : (2 : ℝ) ^ exponent = 2 * 2 ^ (exponent - 1) := by
      rw [← zpow_one_add₀ two_ne_zero, add_sub_cancel]
    rw [half]
    norm_num
    ring
  · obtain ⟨count, rfl⟩ : ∃ count, mantissa = count + 1 := ⟨mantissa - 1, by omega⟩
    refine ⟨count, exponent, by omega, by have := canonical.short; omega, by omega, ?_⟩
    rw [Nat.cast_succ]

namespace Step

variable {count other : ℕ} {power unit : ℤ} {exact magnitude : ℝ}

/-- Nothing below the middle of the step is rounded to its upper end. -/
theorem le_exact (step : Step count power magnitude) (nearest : Nearest exact magnitude) :
    (count + 1 / 2) * 2 ^ power ≤ exact := by
  have unit_pos : (0 : ℝ) < 2 ^ power := zpow_pos two_pos power
  refine le_of_not_gt fun less => ?_
  have rounded := nearest.below count power step.full step.short step.least less
  rw [step.eq] at rounded
  linarith

/-- What reaches the upper end of a step is not rounded to anything below it. -/
theorem le_rounded (step : Step count power exact) {sum rounded : ℝ} (reaches : exact ≤ sum)
    (nearest : Nearest sum rounded) : exact ≤ rounded := by
  have unit_pos : (0 : ℝ) < 2 ^ power := zpow_pos two_pos power
  rw [step.eq] at reaches ⊢
  exact nearest.above count power step.full step.short step.least (by linarith)

/-- What does not go beyond the upper end of a step is not rounded to anything above it. -/
theorem rounded_le (step : Step count power exact) {sum rounded : ℝ} (within : sum ≤ exact)
    (nearest : Nearest sum rounded) : rounded ≤ exact := by
  have unit_pos : (0 : ℝ) < 2 ^ power := zpow_pos two_pos power
  rw [step.eq] at within ⊢
  by_cases last : count + 1 < 2 ^ 53
  · have next := nearest.below (count + 1) power (by have := step.full; omega) last step.least
    push_cast at next
    exact next (by linarith)
  · have top : count + 1 = 2 ^ 53 := by
      have := step.short
      omega
    have whole : ((count : ℝ) + 1) * 2 ^ power = 2 ^ (power + 53) := by
      have bits : (count : ℝ) + 1 = 2 ^ 53 := by exact_mod_cast top
      rw [bits, zpow_add₀ two_ne_zero, mul_comm]
      norm_num
    rw [whole] at within ⊢
    exact nearest.le _ (by have := step.least; omega) within

/-- The upper end of a step is a double, so it is not rounded to anything else. -/
theorem rounded_eq (step : Step count power exact) {rounded : ℝ}
    (nearest : Nearest exact rounded) : rounded = exact :=
  le_antisymm (step.rounded_le le_rfl nearest) (step.le_rounded le_rfl nearest)

/-- Of two doubles, the larger one has the larger units. -/
theorem power_le (lower : Step count power exact) (upper : Step other unit magnitude)
    (less : exact ≤ magnitude) : power ≤ unit := by
  refine le_of_not_gt fun coarser => ?_
  have unit_pos : (0 : ℝ) < 2 ^ unit := zpow_pos two_pos unit
  have double : 2 * 2 ^ unit ≤ (2 : ℝ) ^ power := by
    rw [← zpow_one_add₀ two_ne_zero]
    exact zpow_le_zpow_right₀ one_le_two (by omega)
  have full : (2 : ℝ) ^ 52 ≤ count := by exact_mod_cast lower.full
  have short : (other : ℝ) + 1 ≤ 2 ^ 53 := by exact_mod_cast upper.short
  have more : (2 ^ 52 + 1) * (2 * 2 ^ unit) ≤ exact := by
    rw [lower.eq]
    exact mul_le_mul (by linarith) double (by positivity) (by positivity)
  have most : magnitude ≤ 2 ^ 53 * 2 ^ unit := by
    rw [upper.eq]
    exact mul_le_mul_of_nonneg_right short unit_pos.le
  linarith

/-- A part of the upper end of a step is rounded to the lower end at most. -/
theorem fraction_le (step : Step count power magnitude) {share rounded : ℝ}
    (part : share ≤ (2 ^ 53 - 1) * 2 ^ (-53 : ℤ)) (nearest : Nearest (share * magnitude) rounded) :
    rounded ≤ magnitude - 2 ^ power := by
  have unit_pos : (0 : ℝ) < 2 ^ power := zpow_pos two_pos power
  have full : (2 : ℝ) ^ 52 ≤ count := by exact_mod_cast step.full
  have positive : 0 ≤ magnitude := by
    rw [step.eq]
    positivity
  have product : share * magnitude < (count + 1 / 2) * 2 ^ power := by
    have scaled := mul_le_mul_of_nonneg_right part positive
    refine scaled.trans_lt ?_
    rw [step.eq, ← mul_assoc]
    refine mul_lt_mul_of_pos_right ?_ unit_pos
    have largest : ((2 : ℝ) ^ 53 - 1) * 2 ^ (-53 : ℤ) = 1 - 1 / 2 ^ 53 := by norm_num
    rw [largest]
    linarith
  have lower := nearest.below count power step.full step.short step.least product
  rw [step.eq]
  linarith

end Step

/-- What does not go beyond the upper end of a step is not rounded beyond it. -/
theorem Step.value_le {count : ℕ} {power : ℤ} {exact magnitude : ℝ}
    (step : Step count power magnitude) (rounds : Rounds exact number.unpacked)
    (finite : number.isFinite) (within : |exact| ≤ magnitude) : number.value ≤ magnitude := by
  have near := rounds.nearest ((isFinite_eq number).symm.trans finite)
  exact (le_abs_self _).trans (step.rounded_le within near)

/-- How far rounding can go up, by a bound on the exact number. -/
theorem abs_value_le_add {exact : ℝ} (rounds : Rounds exact number.unpacked)
    (finite : number.isFinite) {power : ℤ} (least : -900 ≤ power) (bound : |exact| ≤ 2 ^ power) :
    |number.value| ≤ |exact| + 2 ^ (power - 53) := by
  have settled := (isFinite_eq number).symm.trans finite
  have nonneg : 0 ≤ |exact| := abs_nonneg exact
  by_cases large : 2 ^ (-1000 : ℤ) ≤ |number.value|
  · obtain ⟨count, unit, step⟩ := exists_step finite large
    have within : |number.value| ≤ 2 ^ power := rounds.le settled power (by omega) bound
    have middle := step.le_exact (rounds.nearest settled)
    have full : (2 : ℝ) ^ 52 ≤ count := by exact_mod_cast step.full
    have small : unit + 52 < power := by
      refine (zpow_lt_zpow_iff_right₀ one_lt_two).mp (lt_of_lt_of_le ?_ within)
      have bits : (2 : ℝ) ^ (52 : ℤ) = 2 ^ 52 := by norm_num
      rw [step.eq, zpow_add₀ two_ne_zero, mul_comm, bits]
      exact mul_lt_mul_of_pos_right (by linarith) (zpow_pos two_pos unit)
    have place : (2 : ℝ) ^ unit ≤ 2 ^ (power - 53) :=
      zpow_le_zpow_right₀ one_le_two (by omega)
    have unit_pos : (0 : ℝ) < 2 ^ unit := zpow_pos two_pos unit
    rw [step.eq]
    linarith
  · have tiny : (2 : ℝ) ^ (-1000 : ℤ) ≤ 2 ^ (power - 53) :=
      zpow_le_zpow_right₀ one_le_two (by omega)
    linarith [not_le.mp large]

/-- A double below one is not nearer to one than the step below it. -/
theorem value_le_of_lt_one (finite : number.isFinite) (less : |number.value| < 1) :
    |number.value| ≤ (2 ^ 53 - 1) * 2 ^ (-53 : ℤ) := by
  have canonical := canonical_fields number
  rw [abs_value_eq finite] at less ⊢
  generalize number.mantissa = mantissa at *
  generalize number.exponent = exponent at *
  have short : (mantissa : ℝ) ≤ 2 ^ 53 - 1 := by
    have : (mantissa : ℝ) + 1 ≤ 2 ^ 53 := by exact_mod_cast canonical.short
    linarith
  by_cases small : exponent ≤ -53
  · exact mul_le_mul short (zpow_le_zpow_right₀ one_le_two small) (by positivity) (by norm_num)
  · have full : 2 ^ 52 ≤ mantissa := canonical.full.resolve_left (by omega)
    have power : (2 : ℝ) ^ (-52 : ℤ) ≤ 2 ^ exponent := zpow_le_zpow_right₀ one_le_two (by omega)
    have large : (2 : ℝ) ^ 52 * 2 ^ (-52 : ℤ) ≤ mantissa * 2 ^ exponent :=
      mul_le_mul (by exact_mod_cast full) power (by positivity) (by positivity)
    norm_num at large
    linarith

end Overlay.Binary64
