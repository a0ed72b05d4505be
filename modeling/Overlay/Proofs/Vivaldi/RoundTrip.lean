import Overlay.Duration
import Overlay.Proofs.Binary64.Extended
import Overlay.Proofs.Binary64.Steps
import Overlay.Proofs.Vivaldi.Norm
import Overlay.Vivaldi

/-!
Measured spans of time as round trips.

A span is turned into a double by way of its seconds. Whole numbers of sixty-four bits are far from
the end of the range, so what comes of it is finite, and it is not negative (`isRoundTrip_millis`).
The least of several such times is one of them, also where the search begins with infinity.
-/

set_option autoImplicit false

namespace Overlay

open Binary64 Float.Model

namespace Binary64

/-- A finite number that is not negative, with a bound. -/
structure Measures (power : ℤ) (number : Binary64) : Prop extends Within power number where
  nonneg : 0 ≤ number.value

theorem measures_of_rounds {number : Binary64} {power : ℤ} {exact : ℝ}
    (rounds : Rounds exact number.unpacked) (bound : Bound power) (nonneg : 0 ≤ exact)
    (le : exact ≤ 2 ^ power) : Measures power number where
  toWithin := within_of_rounds rounds bound (by rwa [abs_of_nonneg nonneg])
  nonneg := rounds.nonneg nonneg

theorem rounds_toFloat (number : UInt64) :
    Rounds number.toNat (Binary64.ofFloat number.toFloat).unpacked := by
  have rounds := rounds_normalize number.toNat 0 .positive
  rw [zpow_zero, mul_one, Int.cast_natCast] at rounds
  exact rounds

/-- Beyond the whole numbers that doubles tell apart, a whole number is rounded from its bits. -/
theorem rounds_ofScientific {number : ℕ} (positive : 0 < number) :
    Rounds number (settle (UnpackedFloat.ofScientific .binary64 number 0)) := by
  have ample : Ample (number <<< 53 * 10 ^ 0) (-53 + 0) := by
    refine Or.inr ?_
    rw [pow_zero, mul_one, Nat.shiftLeft_eq]
    calc 2 ^ 52 ≤ 1 * 2 ^ 53 := by norm_num
      _ ≤ number * 2 ^ 53 := Nat.mul_le_mul_right _ positive
  have rounds := rounds_roundWithAccuracy .positive ample (by
    rw [pow_zero, mul_one, Nat.shiftLeft_eq]
    positivity) (stands_exact (number <<< 53 * 10 ^ 0))
  have exact : unitOfSign .positive * (((number <<< 53 * 10 ^ 0 : ℕ) : ℝ) * 2 ^ (-53 + 0 : ℤ)) =
      number := by
    rw [unitOfSign, one_mul, pow_zero, mul_one, Nat.shiftLeft_eq, Nat.cast_mul, mul_assoc,
      Nat.cast_pow, Nat.cast_ofNat, ← zpow_natCast, ← zpow_add₀ two_ne_zero]
    norm_num
  rw [exact] at rounds
  rw [UnpackedFloat.ofScientific, dif_neg positive.ne', if_neg (by decide), if_neg (by
    change ¬ (0 : ℤ) < -(2 ^ 11 + (number.log2 : ℤ))
    omega), if_pos (by decide)]
  exact rounds

theorem Measures.mul {left right : Binary64} {power other : ℤ} (first : Measures power left)
    (second : Measures other right) (bound : Bound (power + other)) :
    Measures (power + other) (left * right) where
  toWithin := first.toWithin.mul second.toWithin bound
  nonneg := (mul_rounds first.finite second.finite).nonneg (mul_nonneg first.nonneg second.nonneg)

theorem Measures.add {left right : Binary64} {power : ℤ} (first : Measures power left)
    (second : Measures power right) (bound : Bound (power + 1)) :
    Measures (power + 1) (left + right) where
  toWithin := first.toWithin.add second.toWithin bound
  nonneg := (add_rounds first.finite second.finite).nonneg (add_nonneg first.nonneg second.nonneg)

/-- A divisor above one makes nothing larger. -/
theorem Measures.div {left right : Binary64} {power : ℤ} (first : Measures power left)
    (finite : right.isFinite) (above : 1 < right.value) (bound : Bound power) :
    Measures power (left / right) where
  toWithin := by
    have whole : (2 : ℝ) ^ (0 : ℤ) ≤ |right.value| := by
      rw [zpow_zero]
      exact above.le.trans (le_abs_self _)
    have quotient := first.toWithin.div finite whole (by rwa [sub_zero])
    rwa [sub_zero] at quotient
  nonneg := by
    have positive : 0 < right.value := zero_lt_one.trans above
    exact (div_rounds first.finite finite positive.ne').nonneg
      (div_nonneg first.nonneg positive.le)

/-- Small whole numbers are multiplied by one after they were rounded, which leaves them as they
are. -/
theorem rounds_ofNat_small {number : ℕ} (positive : 0 < number) (small : number < 2 ^ 53) :
    Rounds number (ofNat number).unpacked := by
  have rounds := rounds_toFloat number.toUInt64
  rw [UInt64.toNat_ofNat_of_lt' (show number < UInt64.size by rw [UInt64.size]; omega)] at rounds
  have nonneg : (0 : ℝ) ≤ number := Nat.cast_nonneg _
  have read := measures_of_rounds rounds (show Bound 53 by decide) nonneg
    (by exact_mod_cast small.le)
  have finite := (isFinite_eq _).symm.trans read.finite
  have one_le : (2 : ℝ) ^ (0 : ℤ) ≤ |(number : ℝ)| := by
    rw [abs_of_nonneg nonneg, zpow_zero]
    exact_mod_cast positive
  have large := rounds.ge finite 0 (by decide) one_le
  obtain ⟨count, power, step⟩ := exists_step read.finite
    ((zpow_le_zpow_right₀ one_le_two (by decide)).trans large)
  have product := mul_rounds read.finite within_one.finite
  rw [value_one, mul_one] at product
  have same : (ofNat number).unpacked =
      (Binary64.ofFloat number.toUInt64.toFloat * one).unpacked := by
    rw [ofNat, Float.ofNat]
    change (ofFloat (Float.ofScientific number false 0)).unpacked = _
    rw [Float.ofScientific, dif_pos ⟨small, by decide⟩, unpacked_mul]
    rfl
  rw [← same] at product
  have whole := measures_of_rounds product (show Bound 53 by decide) read.nonneg
    ((le_abs_self _).trans read.abs_le)
  have unchanged := step.rounded_eq (product.nearest ((isFinite_eq _).symm.trans whole.finite))
  refine ⟨fun _ => (isFinite_eq _).symm.trans whole.finite, fun _ => ?_, fun _ => whole.nonneg⟩
  rw [unchanged]
  exact rounds.nearest finite

theorem rounds_ofNat {number : ℕ} (small : number < 2 ^ 64) :
    Rounds number (ofNat number).unpacked := by
  rcases Nat.eq_zero_or_pos number with rfl | positive
  · have none : ofNat 0 = zero := by decide +kernel
    have settled : zero.unpacked = settle (.zero .positive) :=
      (settled_zero .positive).settle_eq.symm
    rw [none, settled, Nat.cast_zero]
    exact rounds_zero .positive
  · by_cases exact : number < 2 ^ 53
    · exact rounds_ofNat_small positive exact
    · have rounds := rounds_ofScientific positive
      have same : (ofNat number).unpacked =
          settle (UnpackedFloat.ofScientific .binary64 number 0) := by
        rw [ofNat, Float.ofNat]
        change (ofFloat (Float.ofScientific number false 0)).unpacked = _
        rw [Float.ofScientific, dif_neg (fun within => exact within.1)]
        rfl
      rwa [← same] at rounds

theorem measures_ofNat {number : ℕ} (small : number < 2 ^ 64) : Measures 64 (ofNat number) :=
  measures_of_rounds (rounds_ofNat small) (by decide) (Nat.cast_nonneg _)
    (by exact_mod_cast small.le)

end Binary64

theorem Duration.measures_millis {ticks : ℕ} (small : ticks < 2 ^ 64) :
    Measures 129 (Duration.ofMillis ticks).millis := by
  have seconds : Measures 64 (Binary64.ofNat (Duration.ofMillis ticks).wholeSeconds) := by
    refine measures_ofNat ?_
    change ticks * 1000000 / 1000000000 < 2 ^ 64
    omega
  have rest : Measures 64 (Binary64.ofNat (Duration.ofMillis ticks).subsecondNanos) := by
    refine measures_ofNat ?_
    change ticks * 1000000 % 1000000000 < 2 ^ 64
    omega
  have billion : (Binary64.ofNat 1000000000).isFinite := by decide +kernel
  have above : 1 < (Binary64.ofNat 1000000000).value := by
    rw [← value_one]
    exact (lt_iff_value_lt within_one.finite billion).mp (by decide +kernel)
  have thousand : Measures 64 (Binary64.ofNat 1000) := measures_ofNat (by norm_num)
  exact (seconds.add (rest.div billion above (by decide)) (by decide)).mul thousand (by decide)

namespace Vivaldi

theorem isRoundTrip_of_measures {number : Binary64} {power : ℤ} (measures : Measures power number) :
    isRoundTrip number := by
  refine Bool.and_eq_true_iff.mpr ⟨measures.finite, ?_⟩
  have same : (Scalar.ofNat 0 : Binary64) = zero := ofNat_zero
  rw [same, Bool.not_eq_true', ← Bool.not_eq_true]
  intro negative
  have below := (lt_iff_value_lt measures.finite (within_zero 0).finite).mp negative
  rw [value_zero] at below
  exact below.not_ge measures.nonneg

theorem isRoundTrip_millis {ticks : ℕ} (small : ticks < 2 ^ 64) :
    isRoundTrip (Duration.ofMillis ticks).millis :=
  isRoundTrip_of_measures (Duration.measures_millis small)

/-- The least of some measured times, where the search begins with infinity. -/
theorem isRoundTrip_min {best measured : Binary64} (usable : isRoundTrip measured)
    (begun : best = infinity ∨ isRoundTrip best) : isRoundTrip (Binary64.min best measured) := by
  rcases begun with rfl | before
  · obtain ⟨finite, -⟩ := Bool.and_eq_true_iff.mp usable
    rw [Binary64.min, if_neg (by decide), if_pos (lt_infinity finite)]
    exact usable
  · rw [Binary64.min]
    split
    · exact usable
    · split
      · exact usable
      · exact before

end Vivaldi

end Overlay
