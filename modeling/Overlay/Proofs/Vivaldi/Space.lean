import Mathlib.Analysis.InnerProductSpace.PiL2
import Overlay.Coordinate

/-!
Coordinates whose components are real numbers.

Such coordinates are the points of Euclidean space, and the length of a coordinate is its distance
from the origin there. Every real number counts as finite.
-/

set_option autoImplicit false

namespace Overlay

noncomputable instance : Scalar ℝ where
  ofNat := Nat.cast
  sqrt := Real.sqrt
  abs := abs
  lt left right := decide (left < right)
  isFinite _ := true

namespace Scalar

variable {low high number : ℝ}

@[simp] theorem real_ofNat (number : Nat) : (Scalar.ofNat number : ℝ) = number := rfl

@[simp] theorem real_lt (left right : ℝ) : Scalar.lt left right = decide (left < right) := rfl

@[simp] theorem real_isFinite (number : ℝ) : Scalar.isFinite number = true := rfl

theorem epsilon_pos : (0 : ℝ) < Scalar.epsilon := by
  have positive : (0 : ℝ) < (1 : ℕ) / (Nat.pow 2 52 : ℕ) := by norm_num
  exact positive

theorem atMost_eq_min : Scalar.atMost high number = min high number := by
  rw [Scalar.atMost, real_lt, min_def_lt]
  simp only [decide_eq_true_eq]

theorem le_clamp (ordered : low ≤ high) : low ≤ Scalar.clamp low high number := by
  rw [Scalar.clamp]
  split
  · exact le_refl low
  · split
    · exact ordered
    · next within _ => simpa using within

theorem clamp_le (ordered : low ≤ high) : Scalar.clamp low high number ≤ high := by
  rw [Scalar.clamp]
  split
  · exact ordered
  · split
    · exact le_refl high
    · next _ within => simpa using within

end Scalar

namespace Point

/-- The point of Euclidean space with the same components. -/
noncomputable def toSpace (point : Point ℝ) : EuclideanSpace ℝ (Fin 3) :=
  WithLp.toLp _ ![point.x, point.y, point.z]

theorem norm_toSpace (point : Point ℝ) : ‖point.toSpace‖ = point.norm := by
  rw [EuclideanSpace.norm_eq, Fin.sum_univ_three]
  simp only [Real.norm_eq_abs, pow_two, abs_mul_abs_self]
  rfl

theorem toSpace_add (left right : Point ℝ) :
    (left + right).toSpace = left.toSpace + right.toSpace := by
  ext place
  fin_cases place <;> rfl

theorem toSpace_sub (left right : Point ℝ) :
    (left - right).toSpace = left.toSpace - right.toSpace := by
  ext place
  fin_cases place <;> rfl

theorem toSpace_scale (point : Point ℝ) (factor : ℝ) :
    (point.scale factor).toSpace = factor • point.toSpace := by
  ext place
  fin_cases place <;> exact mul_comm _ factor

theorem distance_eq_norm (left right : Point ℝ) :
    left.distance right = ‖left.toSpace - right.toSpace‖ := by
  rw [distance, ← norm_toSpace, toSpace_sub]

theorem distance_nonneg (left right : Point ℝ) : 0 ≤ left.distance right := by
  rw [distance_eq_norm]
  exact norm_nonneg _

/-- A direction has length one, whatever it was made from. -/
theorem norm_unit (point : Point ℝ) : point.unit.norm = 1 := by
  rw [unit]
  split
  · next usable =>
      have long : Scalar.epsilon < point.norm := by simpa using usable
      have positive : 0 < point.norm := Scalar.epsilon_pos.trans long
      rw [← norm_toSpace, toSpace_scale, norm_smul, norm_toSpace, Real.norm_eq_abs, abs_div,
        Scalar.real_ofNat, Nat.cast_one, abs_one, abs_of_pos positive]
      exact one_div_mul_cancel positive.ne'
  · rw [← norm_toSpace, toSpace, EuclideanSpace.norm_eq, Fin.sum_univ_three]
    simp [axis]

end Point

end Overlay
