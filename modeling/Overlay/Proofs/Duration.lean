import Overlay.Duration
import Overlay.Proofs.Vivaldi.RoundTrip

/-!
Spans that are lengthened by a fraction of themselves.

A span goes through four roundings on its way to seconds, and the product with the fraction through
two more. Together they never make more of a part than the whole was: the last double before that of
the seconds is already below the exact number of seconds, but for less than half a nanosecond
(`lower_seconds_lt`), so a part of it is not rounded beyond that (`scaled_le`).
-/

set_option autoImplicit false

namespace Overlay

namespace Decimal

/-- A quotient below the middle between a whole number and the next one is not rounded up. -/
theorem roundQuotient_le {tie : Tie} {numerator denominator bound : ℕ}
    (below : 2 * numerator < (2 * bound + 1) * denominator) :
    roundQuotient tie numerator denominator ≤ bound := by
  have parts := Nat.div_add_mod numerator denominator
  have positive : 0 < denominator := Nat.pos_of_ne_zero fun none => by simp [none] at below
  rw [roundQuotient.eq_def]
  generalize numerator / denominator = floor at *
  generalize numerator % denominator = rest at *
  have whole : floor ≤ bound := by
    refine Nat.le_of_not_lt fun beyond => ?_
    have := Nat.mul_le_mul_left denominator (Nat.succ_le_of_lt beyond)
    nlinarith
  have next (half : denominator ≤ 2 * rest) : floor + 1 ≤ bound := by
    refine Nat.le_of_not_lt fun beyond => ?_
    have := Nat.mul_le_mul_left denominator (Nat.le_of_lt_succ beyond)
    nlinarith
  dsimp only
  split
  · exact whole
  · next large =>
      have most := next (Nat.le_of_not_lt large)
      split
      · exact most
      · split
        · exact most
        · split <;> omega

theorem quotient_eq (mantissa : ℕ) (exponent : ℤ) :
    0 < (quotient mantissa exponent).2 ∧ ((quotient mantissa exponent).1 : ℝ) =
      mantissa * 2 ^ exponent * (quotient mantissa exponent).2 := by
  cases exponent with
  | ofNat power =>
      refine ⟨Nat.one_pos, ?_⟩
      simp [quotient]
  | negSucc power =>
      refine ⟨Nat.two_pow_pos _, ?_⟩
      have unit_ne : (2 : ℝ) ^ (power + 1) ≠ 0 := by positivity
      simp only [quotient, Nat.pow_eq, zpow_negSucc, Nat.cast_pow, Nat.cast_ofNat]
      rw [mul_assoc, inv_mul_cancel₀ unit_ne, mul_one]

end Decimal

open Binary64

namespace Duration

/-- Seconds are read to the nearest nanosecond. -/
theorem nanos_ofSeconds_le {seconds : Binary64} {bound : ℕ} (finite : seconds.isFinite)
    (below : 2 * (|seconds.value| * 1000000000) < 2 * bound + 1) :
    (ofSeconds seconds).nanos ≤ bound := by
  obtain ⟨positive, same⟩ := Decimal.quotient_eq seconds.mantissa seconds.exponent
  rw [abs_value_eq finite] at below
  change Decimal.roundQuotient .toEven
    ((Decimal.quotient seconds.mantissa seconds.exponent).1 * 1000000000)
    (Decimal.quotient seconds.mantissa seconds.exponent).2 ≤ bound
  refine Decimal.roundQuotient_le ?_
  generalize Decimal.quotient seconds.mantissa seconds.exponent = parts at *
  have positive : (0 : ℝ) < parts.2 := by exact_mod_cast positive
  have scaled : (2 : ℝ) * (parts.1 * 1000000000) < (2 * bound + 1) * parts.2 := by
    rw [same]
    nlinarith [mul_lt_mul_of_pos_right below positive]
  exact_mod_cast scaled

/-- A number of nanoseconds in a second. -/
abbrev billion : Binary64 := .ofNat 1000000000

theorem value_billion : billion.value = 1000000000 := by
  have bits : billion = ⟨0x41cdcd6500000000⟩ := by decide +kernel
  have unpacked_billion : (⟨0x41cdcd6500000000⟩ : Binary64).unpacked =
      .finite .positive (1000000000 * 2 ^ 23) (-23) (by norm_num) := rfl
  rw [bits, value, unpacked_billion, real, unitOfSign]
  norm_num

theorem isFinite_billion : billion.isFinite := by decide +kernel

/-- The nanoseconds beyond the whole seconds, as a part of a second. -/
def rest (span : Duration) : Binary64 := .ofNat span.subsecondNanos / billion

variable {span : Duration}

theorem subsecondNanos_lt (span : Duration) : span.subsecondNanos < 1000000000 :=
  Nat.mod_lt _ (by norm_num)

/-- The part of a second is off by less than a quarter of a nanosecond. -/
theorem rest_measured (span : Duration) : Measures 1 span.rest ∧
    4 * (span.rest.value * 1000000000) < 4 * span.subsecondNanos + 1 := by
  have few := span.subsecondNanos_lt
  have nonneg : (0 : ℝ) ≤ span.subsecondNanos := Nat.cast_nonneg _
  have most : (span.subsecondNanos : ℝ) ≤ 2 ^ (30 : ℤ) := by
    have : (span.subsecondNanos : ℝ) < 1000000000 := by exact_mod_cast few
    norm_num
    linarith
  have counted := rounds_ofNat (show span.subsecondNanos < 2 ^ 64 by omega)
  have count := measures_of_rounds counted (show Bound 30 by decide) nonneg most
  have upper := abs_value_le_add counted count.finite (show (-900 : ℤ) ≤ 30 by decide)
    (by rwa [abs_of_nonneg nonneg])
  rw [abs_of_nonneg count.nonneg, abs_of_nonneg nonneg] at upper
  norm_num only at upper
  have divided := div_rounds count.finite isFinite_billion (by rw [value_billion]; norm_num)
  rw [value_billion] at divided
  have part_nonneg : 0 ≤ (Binary64.ofNat span.subsecondNanos).value / 1000000000 :=
    div_nonneg count.nonneg (by norm_num)
  have part_le : (Binary64.ofNat span.subsecondNanos).value / 1000000000 ≤ 2 ^ (1 : ℤ) := by
    have below : (span.subsecondNanos : ℝ) < 1000000000 := by exact_mod_cast few
    rw [div_le_iff₀ (by norm_num)]
    norm_num
    linarith
  have part := measures_of_rounds divided (show Bound 1 by decide) part_nonneg part_le
  have rounded := abs_value_le_add divided part.finite (show (-900 : ℤ) ≤ 1 by decide)
    (by rwa [abs_of_nonneg part_nonneg])
  rw [abs_of_nonneg part.nonneg, abs_of_nonneg part_nonneg] at rounded
  refine ⟨part, ?_⟩
  norm_num only at rounded
  change 4 * ((Binary64.ofNat span.subsecondNanos / billion).value * 1000000000) < _
  linarith

/-- A positive number of whole seconds has a step below it, and is not below the middle of it. -/
theorem exists_step_ofNat {seconds : ℕ} (positive : 0 < seconds) (small : seconds < 2 ^ 64) :
    ∃ count power, Step count power (Binary64.ofNat seconds).value ∧
      (2 * count + 1) * 2 ^ power ≤ (2 * seconds : ℝ) := by
  have rounds := rounds_ofNat small
  have measures := measures_ofNat small
  have settled := (isFinite_eq _).symm.trans measures.finite
  have one_le : (2 : ℝ) ^ (0 : ℤ) ≤ |(seconds : ℝ)| := by
    rw [abs_of_nonneg (Nat.cast_nonneg _), zpow_zero]
    exact_mod_cast positive
  have large : (2 : ℝ) ^ (-1000 : ℤ) ≤ |(Binary64.ofNat seconds).value| :=
    (zpow_le_zpow_right₀ one_le_two (by decide)).trans (rounds.ge settled 0 (by decide) one_le)
  obtain ⟨count, power, step⟩ := exists_step measures.finite large
  have middle := step.le_exact (rounds.nearest settled)
  rw [abs_of_nonneg (Nat.cast_nonneg _)] at middle
  rw [abs_of_nonneg measures.nonneg] at step
  exact ⟨count, power, step, by linarith⟩

theorem value_ofNat_zero : (Binary64.ofNat 0).value = 0 := by
  have none : Binary64.ofNat 0 = zero := by decide +kernel
  rw [none, value_zero]

/-- What is added to the whole seconds does not make the sum round to less than them. -/
theorem whole_le_rounded {seconds : ℕ} (small : seconds < 2 ^ 64) {sum rounded : ℝ}
    (reaches : (Binary64.ofNat seconds).value ≤ sum) (nearest : Nearest sum rounded)
    (nonneg : 0 ≤ rounded) : (Binary64.ofNat seconds).value ≤ rounded := by
  rcases Nat.eq_zero_or_pos seconds with rfl | positive
  · rwa [value_ofNat_zero]
  · obtain ⟨count, power, step, -⟩ := exists_step_ofNat positive small
    exact step.le_rounded reaches nearest

/-- The whole seconds are rounded by no more than half a unit of any double above them. -/
theorem whole_le {count : ℕ} {power : ℤ} {seconds : ℕ} (small : seconds < 2 ^ 64)
    {above : ℝ} (step : Step count power above) (below : (Binary64.ofNat seconds).value ≤ above) :
    2 * (Binary64.ofNat seconds).value ≤ 2 * seconds + 2 ^ power := by
  rcases Nat.eq_zero_or_pos seconds with rfl | positive
  · have unit_pos : (0 : ℝ) < 2 ^ power := zpow_pos two_pos power
    rw [value_ofNat_zero, Nat.cast_zero]
    linarith
  · obtain ⟨own, unit, lower, middle⟩ := exists_step_ofNat positive small
    have finer : (2 : ℝ) ^ unit ≤ 2 ^ power :=
      zpow_le_zpow_right₀ one_le_two (lower.power_le step below)
    rw [lower.eq]
    linarith

section Seconds

variable (few : span.wholeSeconds < 2 ^ 64)

include few

theorem seconds_measured : Measures 65 span.seconds := by
  obtain ⟨rest, -⟩ := span.rest_measured
  exact (measures_ofNat few).add ⟨rest.toWithin.mono (by decide), rest.nonneg⟩ (by decide)

/-- The last double before the seconds of a span is below the exact number of seconds, but for less
than half a nanosecond. -/
theorem lower_seconds_lt {count : ℕ} {power : ℤ} (step : Step count power |span.seconds.value|) :
    2 * (count * 2 ^ power * 1000000000) < (2 * span.nanos + 1 : ℝ) := by
  have whole := measures_ofNat few
  obtain ⟨rest, most⟩ := span.rest_measured
  have settled := (isFinite_eq _).symm.trans (seconds_measured few).finite
  have nearest := (add_rounds whole.finite rest.finite).nearest settled
  rw [abs_of_nonneg (add_nonneg whole.nonneg rest.nonneg)] at nearest
  have reached : (Binary64.ofNat span.wholeSeconds).value ≤ |span.seconds.value| :=
    whole_le_rounded few (le_add_of_nonneg_right rest.nonneg) nearest (abs_nonneg _)
  have seconds := whole_le few step reached
  have middle := step.le_exact nearest
  have parts : (span.nanos : ℝ) = span.wholeSeconds * 1000000000 + span.subsecondNanos := by
    exact_mod_cast (Nat.div_add_mod' span.nanos 1000000000).symm
  rw [parts]
  linarith

end Seconds

/-- A part of a span is not longer than the span. -/
theorem scaled_le (short : span.nanos < 2 ^ 64 * 1000000) {fraction : Binary64}
    (finite : fraction.isFinite) (less : |fraction.value| < 1) :
    (span.scaled fraction).nanos ≤ span.nanos := by
  have few : span.wholeSeconds < 2 ^ 64 := by
    rw [wholeSeconds]
    omega
  have total := seconds_measured few
  have product := mul_rounds finite total.finite
  have share : |fraction.value * span.seconds.value| ≤ |span.seconds.value| := by
    rw [abs_mul]
    exact mul_le_of_le_one_left (abs_nonneg _) less.le
  have scaled : Within 65 (fraction * span.seconds) :=
    within_of_rounds product (by decide) (share.trans total.abs_le)
  have settled := (isFinite_eq _).symm.trans scaled.finite
  refine nanos_ofSeconds_le scaled.finite ?_
  by_cases large : 2 ^ (-1000 : ℤ) ≤ |span.seconds.value|
  · obtain ⟨count, power, step⟩ := exists_step total.finite large
    have nearest := product.nearest settled
    rw [abs_mul] at nearest
    have below := step.fraction_le (value_le_of_lt_one finite less) nearest
    have lower := lower_seconds_lt few step
    rw [step.eq] at below
    change |(fraction * span.seconds).value| ≤ _ at below
    linarith
  · -- next to nothing, so all of it is less than half a nanosecond
    have tiny := product.le settled (-1000) (by decide) (share.trans (not_le.mp large).le)
    have little : (2 : ℝ) ^ (-1000 : ℤ) ≤ 2 ^ (-40 : ℤ) :=
      zpow_le_zpow_right₀ one_le_two (by decide)
    norm_num only at little
    have nonneg : (0 : ℝ) ≤ span.nanos := Nat.cast_nonneg _
    change |(fraction * span.seconds).value| ≤ _ at tiny
    linarith

/-- Jitter never shortens a span. -/
theorem le_jittered (span : Duration) (fraction : Binary64) : span ≤ span.jittered fraction :=
  Nat.le_add_right _ _

end Duration

end Overlay
