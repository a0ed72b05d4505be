import Overlay.Coordinate
import Overlay.Proofs.Binary64.Arithmetic

/-!
Lengths of coordinates whose components are doubles.

A length can overflow although all components are finite. Where it does not, it tells how large the
components can be (`within_of_norm_lt`), and a direction made with it has components of at most two
(`unit_within`).
-/

set_option autoImplicit false

namespace Overlay

namespace Binary64

theorem ofNat_zero : (Scalar.ofNat 0 : Binary64) = zero := by decide +kernel

theorem ofNat_one : (Scalar.ofNat 1 : Binary64) = one := by decide +kernel

theorem value_zero : zero.value = 0 := rfl

theorem value_one : one.value = 1 := by
  have unpacked_one : one.unpacked = .finite .positive (2 ^ 52) (-52) (by norm_num) := rfl
  rw [value, unpacked_one, real, unitOfSign]
  norm_num

theorem within_one : Within 0 one := ⟨rfl, by rw [value_one, abs_one, zpow_zero]⟩

theorem within_zero (power : ℤ) : Within power zero :=
  ⟨rfl, by rw [value_zero, abs_zero]; exact (zpow_pos two_pos power).le⟩

theorem value_epsilon : (Scalar.epsilon : Binary64).value = 2 ^ (-52 : ℤ) := by
  have bits : (Scalar.epsilon : Binary64) = ⟨0x3cb0000000000000⟩ := by decide +kernel
  have unpacked_epsilon : (⟨0x3cb0000000000000⟩ : Binary64).unpacked =
      .finite .positive (2 ^ 52) (-104) (by norm_num) := rfl
  rw [bits, value, unpacked_epsilon, real, unitOfSign]
  norm_num

variable {left right number : Binary64} {power : ℤ}

theorem square_nonneg (finite : (number * number).isFinite) : 0 ≤ (number * number).value := by
  have factors : number.isFinite := (isFinite_of_mul finite).1
  exact (mul_rounds factors factors).nonneg (mul_self_nonneg _)

theorem le_square (finite : (number * number).isFinite) (least : -537 ≤ power)
    (above : 2 ^ power ≤ |number.value|) : 2 ^ (2 * power) ≤ (number * number).value := by
  have factors : number.isFinite := (isFinite_of_mul finite).1
  have exact_ge : 2 ^ (2 * power) ≤ |number.value * number.value| := by
    rw [two_mul, zpow_add₀ two_ne_zero, abs_mul]
    have power_nonneg : (0 : ℝ) ≤ 2 ^ power := (zpow_pos two_pos power).le
    exact mul_le_mul above above power_nonneg (abs_nonneg _)
  have rounded_ge := (mul_rounds factors factors).ge ((isFinite_eq _).symm.trans finite) (2 * power)
    (by omega) exact_ge
  exact rounded_ge.trans_eq (abs_of_nonneg (square_nonneg finite))

theorem sum_nonneg (finite : (left + right).isFinite) (leftNonneg : 0 ≤ left.value)
    (rightNonneg : 0 ≤ right.value) : 0 ≤ (left + right).value := by
  obtain ⟨finiteLeft, finiteRight⟩ := isFinite_of_add finite
  exact (add_rounds finiteLeft finiteRight).nonneg (add_nonneg leftNonneg rightNonneg)

theorem le_sum (finite : (left + right).isFinite) (leftNonneg : 0 ≤ left.value)
    (rightNonneg : 0 ≤ right.value) (least : -1074 ≤ power)
    (above : 2 ^ power ≤ left.value ∨ 2 ^ power ≤ right.value) :
    2 ^ power ≤ (left + right).value := by
  obtain ⟨finiteLeft, finiteRight⟩ := isFinite_of_add finite
  have exact_ge : 2 ^ power ≤ |left.value + right.value| := by
    rw [abs_of_nonneg (add_nonneg leftNonneg rightNonneg)]
    rcases above with first | second <;> linarith
  have rounded_ge := (add_rounds finiteLeft finiteRight).ge ((isFinite_eq _).symm.trans finite)
    power least exact_ge
  exact rounded_ge.trans_eq (abs_of_nonneg (sum_nonneg finite leftNonneg rightNonneg))

end Binary64

namespace Point

open Binary64

variable {point : Coordinate} {power : ℤ}

/-- All components are finite, with a bound on their magnitude. -/
structure Within (power : ℤ) (point : Coordinate) : Prop where
  x : Binary64.Within power point.x
  y : Binary64.Within power point.y
  z : Binary64.Within power point.z

/-- What the length is the root of. -/
def square (point : Coordinate) : Binary64 :=
  point.x * point.x + point.y * point.y + point.z * point.z

theorem norm_eq (point : Coordinate) : point.norm = point.square.sqrt := rfl

/-- A length is finite just if none of the steps to it overflow. -/
structure Measurable (point : Coordinate) : Prop where
  sum : point.square.isFinite
  part : (point.x * point.x + point.y * point.y).isFinite
  x : (point.x * point.x).isFinite
  y : (point.y * point.y).isFinite
  z : (point.z * point.z).isFinite

theorem measurable (finite : point.norm.isFinite) : point.Measurable := by
  have sum : point.square.isFinite := isFinite_of_sqrt finite
  obtain ⟨part, z⟩ := isFinite_of_add sum
  obtain ⟨x, y⟩ := isFinite_of_add part
  exact ⟨sum, part, x, y, z⟩

namespace Measurable

theorem part_nonneg (measurable : point.Measurable) :
    0 ≤ (point.x * point.x + point.y * point.y).value :=
  sum_nonneg measurable.part (square_nonneg measurable.x) (square_nonneg measurable.y)

theorem square_nonneg (measurable : point.Measurable) : 0 ≤ point.square.value :=
  sum_nonneg measurable.sum measurable.part_nonneg (Binary64.square_nonneg measurable.z)

theorem rounds (measurable : point.Measurable) :
    Rounds √point.square.value point.norm.unpacked :=
  sqrt_rounds measurable.sum measurable.square_nonneg

theorem norm_nonneg (measurable : point.Measurable) : 0 ≤ point.norm.value :=
  measurable.rounds.nonneg (Real.sqrt_nonneg _)

/-- Half of the exponents of a double are left to a length. -/
theorem norm_within (measurable : point.Measurable) : Binary64.Within 512 point.norm := by
  refine within_of_rounds measurable.rounds (by decide) ?_
  have largest := (settled_unpacked point.square).abs_real_le
  have place_nonneg : (0 : ℝ) ≤ 2 ^ (971 : ℤ) := (zpow_pos two_pos _).le
  have power : (2 : ℝ) ^ (1024 : ℤ) = (2 ^ (512 : ℤ)) ^ 2 := by
    rw [← zpow_natCast, ← zpow_mul]
    norm_num
  rw [abs_of_nonneg (Real.sqrt_nonneg _), Real.sqrt_le_left (zpow_pos two_pos _).le, ← power]
  exact (le_abs_self _).trans (largest.trans (sub_le_self _ place_nonneg))

/-- The length is not below a power of two that a component is not below. -/
theorem le_norm (measurable : point.Measurable) (least : -537 ≤ power)
    (above : 2 ^ power ≤ |point.x.value| ∨ 2 ^ power ≤ |point.y.value| ∨
      2 ^ power ≤ |point.z.value|) :
    2 ^ power ≤ point.norm.value := by
  have square_ge : 2 ^ (2 * power) ≤ point.square.value := by
    refine le_sum measurable.sum measurable.part_nonneg (Binary64.square_nonneg measurable.z)
      (by omega) ?_
    rcases above with x | y | z
    · exact Or.inl (le_sum measurable.part (Binary64.square_nonneg measurable.x)
        (Binary64.square_nonneg measurable.y) (by omega) (Or.inl (le_square measurable.x least x)))
    · exact Or.inl (le_sum measurable.part (Binary64.square_nonneg measurable.x)
        (Binary64.square_nonneg measurable.y) (by omega) (Or.inr (le_square measurable.y least y)))
    · exact Or.inr (le_square measurable.z least z)
  have root_ge : 2 ^ power ≤ |√point.square.value| := by
    rw [abs_of_nonneg (Real.sqrt_nonneg _)]
    refine Real.le_sqrt_of_sq_le ?_
    rwa [← zpow_natCast, ← zpow_mul, mul_comm]
  have finite : point.norm.unpacked.isFinite :=
    (isFinite_eq _).symm.trans measurable.norm_within.finite
  have rounded_ge := measurable.rounds.ge finite power (by omega) root_ge
  exact rounded_ge.trans_eq (abs_of_nonneg measurable.norm_nonneg)

theorem within_of_norm_lt (measurable : point.Measurable) (least : -537 ≤ power)
    (below : point.norm.value < 2 ^ power) : point.Within power := by
  refine ⟨⟨(isFinite_of_mul measurable.x).1, ?_⟩, ⟨(isFinite_of_mul measurable.y).1, ?_⟩,
    ⟨(isFinite_of_mul measurable.z).1, ?_⟩⟩
  all_goals
    refine le_of_not_ge fun above => below.not_ge (measurable.le_norm least ?_)
  · exact Or.inl above
  · exact Or.inr (Or.inl above)
  · exact Or.inr (Or.inr above)

end Measurable

/-- Distances do not overflow within a region that leaves most of the doubles out. -/
theorem distance_isFinite {place remote : Coordinate} (near : place.Within 509)
    (close : remote.Within 509) : (place.distance remote).isFinite := by
  have x := near.x.sub close.x (by decide)
  have y := near.y.sub close.y (by decide)
  have z := near.z.sub close.z (by decide)
  have part := (x.mul x (by decide)).add (y.mul y (by decide)) (by decide)
  have sum := part.add ((z.mul z (by decide)).mono (by norm_num)) (by decide)
  have measurable : (place - remote).Measurable :=
    ⟨sum.finite, part.finite, (x.mul x (by decide)).finite, (y.mul y (by decide)).finite,
      (z.mul z (by decide)).finite⟩
  exact measurable.norm_within.finite

theorem scale_within {factor : Binary64} {other : ℤ} (within : point.Within power)
    (small : Binary64.Within other factor) (bound : Bound (power + other)) :
    (point.scale factor).Within (power + other) :=
  ⟨within.x.mul small bound, within.y.mul small bound, within.z.mul small bound⟩

/-- A displacement divided by its length. -/
theorem scale_inverse_within (finite : point.norm.isFinite)
    (apart : Scalar.lt Scalar.epsilon point.norm) :
    (point.scale (Scalar.ofNat 1 / point.norm)).Within 1 := by
  have measurable := measurable finite
  have epsilon_lt : 2 ^ (-52 : ℤ) < point.norm.value := by
    rw [← value_epsilon]
    exact (lt_iff_value_lt (by decide +kernel) finite).mp apart
  have positive : 0 < point.norm.value := (zpow_pos two_pos _).trans epsilon_lt
  obtain ⟨power, low, high⟩ := exists_mem_Ico_zpow positive one_lt_two
  have least : -52 < power + 1 := (zpow_lt_zpow_iff_right₀ one_lt_two).mp (epsilon_lt.trans high)
  have most : power ≤ 512 := by
    have norm_le := (le_abs_self _).trans measurable.norm_within.abs_le
    exact (zpow_le_zpow_iff_right₀ one_lt_two).mp (low.trans norm_le)
  have inverse : Binary64.Within (0 - power) (one / point.norm) :=
    within_one.div finite (low.trans (le_abs_self _)) (by constructor <;> omega)
  have within := scale_within (measurable.within_of_norm_lt (by omega) high) inverse
    (by constructor <;> omega)
  rw [ofNat_one]
  rwa [show power + 1 + (0 - power) = 1 by omega] at within

theorem axis_within : (axis : Coordinate).Within 1 := by
  rw [axis, ofNat_zero, ofNat_one]
  exact ⟨within_one.mono (by norm_num), within_zero 1, within_zero 1⟩

/-- A direction has small components, whatever it was made from. -/
theorem unit_within (point : Coordinate) : point.unit.Within 1 := by
  rw [unit]
  split
  · next usable =>
      obtain ⟨finite, apart⟩ := Bool.and_eq_true_iff.mp usable
      exact scale_inverse_within finite apart
  · exact axis_within

end Point

end Overlay
