import Mathlib.Tactic.FieldSimp
import Mathlib.Tactic.Linarith
import Mathlib.Tactic.Module
import Mathlib.Tactic.Ring
import Overlay.Proofs.Vivaldi.Samples
import Overlay.Proofs.Vivaldi.Space

/-!
How far samples can drive a coordinate, in the arithmetic of the real numbers.

A sample leaves the coordinate on the line to the peer, at a mean of the old distance and the round
trip (`distance_moved`). However the samples are chosen, the coordinate therefore stays within a
radius that the peers, the round trips and the least step fix (`run_bounded`).
-/

set_option autoImplicit false

namespace Overlay.Vivaldi

/-- The round trip of a sample as it enters the rule. -/
noncomputable def Sample.counted (sample : Sample ℝ) : ℝ :=
  Scalar.atMost longestRoundTrip sample.roundTrip

/-- The steps that a sample may take close some of the gap, and at most all of it. -/
structure Parameters.Steady (parameters : Parameters ℝ) : Prop where
  positive : 0 < parameters.minStep
  ordered : parameters.minStep ≤ parameters.maxStep
  atMostOne : parameters.maxStep ≤ 1

variable {parameters : Parameters ℝ} {state : State ℝ} {sample : Sample ℝ} {spare : Point ℝ}

theorem roundTrip_nonneg (admissible : sample.isAdmissible) : 0 ≤ sample.roundTrip := by
  simpa [Sample.isAdmissible, isRoundTrip, Point.isFinite] using admissible

theorem counted_nonneg (admissible : sample.isAdmissible) : 0 ≤ sample.counted := by
  rw [Sample.counted, Scalar.atMost_eq_min]
  exact le_min (Nat.cast_nonneg 60000) (roundTrip_nonneg admissible)

namespace State

/-- The fraction of the gap that a sample closes. -/
noncomputable def step (parameters : Parameters ℝ) (state : State ℝ) (sample : Sample ℝ) : ℝ :=
  stepSize parameters
    (weight (Scalar.clamp (Scalar.ofNat 0) (Scalar.ofNat 1) state.error)
      (trustedError sample.remoteError))

theorem minStep_le_step (steady : parameters.Steady) :
    parameters.minStep ≤ state.step parameters sample := Scalar.le_clamp steady.ordered

theorem step_le_maxStep (steady : parameters.Steady) :
    state.step parameters sample ≤ parameters.maxStep := Scalar.clamp_le steady.ordered

theorem step_nonneg (steady : parameters.Steady) : 0 ≤ state.step parameters sample :=
  steady.positive.le.trans (minStep_le_step steady)

theorem step_le_one (steady : parameters.Steady) : state.step parameters sample ≤ 1 :=
  (step_le_maxStep steady).trans steady.atMostOne

theorem toSpace_moved :
    (state.moved parameters sample spare).coordinate.toSpace =
      state.coordinate.toSpace +
        (state.step parameters sample *
          (sample.counted - state.coordinate.distance sample.remote)) •
          (direction state.coordinate sample.remote spare).toSpace := by
  rw [← Point.toSpace_scale, ← Point.toSpace_add]
  rfl

/-- A sample leaves the coordinate on the line to the peer, and closes its share of the gap between
the distance and the round trip. -/
theorem distance_moved (steady : parameters.Steady) (admissible : sample.isAdmissible)
    (apart : Scalar.epsilon < state.coordinate.distance sample.remote) :
    (state.moved parameters sample spare).coordinate.distance sample.remote =
      (1 - state.step parameters sample) * state.coordinate.distance sample.remote +
        state.step parameters sample * sample.counted := by
  have predicted_pos := Scalar.epsilon_pos.trans apart
  have heading : (direction state.coordinate sample.remote spare).toSpace =
      (1 / state.coordinate.distance sample.remote) •
        (state.coordinate.toSpace - sample.remote.toSpace) := by
    rw [direction, Scalar.real_lt, decide_eq_true apart, if_pos rfl, Point.toSpace_scale,
      Point.toSpace_sub, Scalar.real_ofNat, Nat.cast_one]
  rw [Point.distance_eq_norm, toSpace_moved, heading]
  have gap := Point.distance_eq_norm state.coordinate sample.remote
  generalize state.coordinate.distance sample.remote = predicted at *
  generalize state.coordinate.toSpace = place at *
  generalize sample.remote.toSpace = remote at *
  have step_nonneg : 0 ≤ state.step parameters sample := step_nonneg steady
  have step_le_one : state.step parameters sample ≤ 1 := step_le_one steady
  have counted_nonneg := counted_nonneg admissible
  generalize state.step parameters sample = step at *
  have line : place + (step * (sample.counted - predicted)) • (1 / predicted) • (place - remote) -
      remote = (((1 - step) * predicted + step * sample.counted) / predicted) •
        (place - remote) := by
    have split : ((1 - step) * predicted + step * sample.counted) / predicted =
        1 + step * (sample.counted - predicted) * (1 / predicted) := by
      field_simp
      ring
    rw [split]
    module
  have mean_nonneg : 0 ≤ (1 - step) * predicted + step * sample.counted :=
    add_nonneg (mul_nonneg (by linarith) predicted_pos.le) (mul_nonneg step_nonneg counted_nonneg)
  rw [line, norm_smul, ← gap, Real.norm_eq_abs,
    abs_of_nonneg (div_nonneg mean_nonneg predicted_pos.le), div_mul_cancel₀ _ predicted_pos.ne']

/-- Where the coordinates coincide, the sample moves the coordinate by its share of the gap. -/
theorem norm_moved_near (near : state.coordinate.distance sample.remote ≤ Scalar.epsilon) :
    (state.moved parameters sample spare).coordinate.norm ≤ state.coordinate.norm +
      |state.step parameters sample *
        (sample.counted - state.coordinate.distance sample.remote)| := by
  have heading : ‖(direction state.coordinate sample.remote spare).toSpace‖ = 1 := by
    rw [direction, Scalar.real_lt, decide_eq_false near.not_gt, if_neg Bool.false_ne_true,
      Point.norm_toSpace, Point.norm_unit]
  rw [← Point.norm_toSpace, toSpace_moved, ← Point.norm_toSpace]
  refine (norm_add_le _ _).trans (add_le_add (le_refl _) ?_)
  rw [norm_smul, heading, mul_one, Real.norm_eq_abs]

end State

section

-- The numeral takes the named fact, where it would bring a proof of its own.
local instance atLeastTwo_two : Nat.AtLeastTwo 2 := ⟨Nat.le_refl 2⟩

/-- How far from the origin samples can drive a coordinate, of peers within a radius and of round
trips up to a longest one. -/
noncomputable def reach (parameters : Parameters ℝ) (radius longest : ℝ) : ℝ :=
  longest + (2 - parameters.minStep) * radius / parameters.minStep + 2 * Scalar.epsilon

end

/-- The peer is within a radius, and the round trip is not longer than the longest, unless the
sample is refused. -/
structure Observation.Tame (radius longest : ℝ) (observation : Observation ℝ) : Prop where
  remote : observation.sample.remote.norm ≤ radius
  roundTrip : observation.sample.isAdmissible → observation.sample.counted ≤ longest

/-- A coordinate within reach, and an error that is a confidence. -/
structure State.Within (parameters : Parameters ℝ) (radius longest : ℝ) (state : State ℝ) :
    Prop where
  norm : state.coordinate.norm ≤ reach parameters radius longest
  error_nonneg : 0 ≤ state.error
  error_le_one : state.error ≤ 1

section Reach

variable {radius longest : ℝ}

/-- The radius that the peers and the round trips give alone is within reach. -/
theorem sum_le_reach (steady : parameters.Steady) (radius_nonneg : 0 ≤ radius) :
    radius + longest + 2 * Scalar.epsilon ≤ reach parameters radius longest := by
  have atMostOne : parameters.minStep ≤ 1 := steady.ordered.trans steady.atMostOne
  have wider : radius ≤ (2 - parameters.minStep) * radius / parameters.minStep := by
    rw [le_div_iff₀ steady.positive]
    nlinarith
  rw [reach]
  linarith

/-- A mean of something within reach and of a round trip is within reach, also as seen from the
origin. -/
theorem mean_le_reach (steady : parameters.Steady) (radius_nonneg : 0 ≤ radius) {step norm : ℝ}
    (enough : parameters.minStep ≤ step) (atMostOne : step ≤ 1)
    (norm_le : norm ≤ reach parameters radius longest) :
    (1 - step) * (norm + radius) + step * longest + radius ≤ reach parameters radius longest := by
  have least_pos := steady.positive
  have step_pos : 0 < step := least_pos.trans_le enough
  -- the smallest step leaves the most room to the peers
  have room : (2 - step) * radius ≤
      step * ((2 - parameters.minStep) * radius / parameters.minStep) := by
    rw [mul_div_assoc', le_div_iff₀ least_pos]
    nlinarith [mul_le_mul_of_nonneg_right enough radius_nonneg]
  have margin : step * longest + (2 - step) * radius ≤ step * reach parameters radius longest := by
    have epsilon_nonneg := mul_nonneg step_pos.le Scalar.epsilon_pos.le
    rw [reach]
    linarith
  have shrunk := mul_le_mul_of_nonneg_left norm_le (sub_nonneg.mpr atMostOne)
  linarith

theorem norm_moved_le (steady : parameters.Steady) (radius_nonneg : 0 ≤ radius)
    (longest_nonneg : 0 ≤ longest) (remote : sample.remote.norm ≤ radius)
    (admissible : sample.isAdmissible) (short : sample.counted ≤ longest)
    (within : state.coordinate.norm ≤ reach parameters radius longest) :
    (state.moved parameters sample spare).coordinate.norm ≤ reach parameters radius longest := by
  have step_nonneg : 0 ≤ state.step parameters sample := State.step_nonneg steady
  have step_le_one : state.step parameters sample ≤ 1 := State.step_le_one steady
  rcases lt_or_ge Scalar.epsilon (state.coordinate.distance sample.remote) with apart | near
  · have arrived : (state.moved parameters sample spare).coordinate.norm ≤
        (state.moved parameters sample spare).coordinate.distance sample.remote + radius := by
      rw [Point.distance_eq_norm, ← Point.norm_toSpace]
      rw [← Point.norm_toSpace] at remote
      exact (norm_le_norm_sub_add _ sample.remote.toSpace).trans (by linarith)
    have predicted_le : state.coordinate.distance sample.remote ≤
        state.coordinate.norm + radius := by
      rw [Point.distance_eq_norm, ← Point.norm_toSpace]
      rw [← Point.norm_toSpace] at remote
      exact (norm_sub_le _ _).trans (by linarith)
    rw [State.distance_moved steady admissible apart] at arrived
    have old := mul_le_mul_of_nonneg_left predicted_le (sub_nonneg.mpr step_le_one)
    have new := mul_le_mul_of_nonneg_left short step_nonneg
    have mean := mean_le_reach steady radius_nonneg (State.minStep_le_step steady) step_le_one
      within
    linarith
  · have started : state.coordinate.norm ≤ Scalar.epsilon + radius := by
      rw [Point.distance_eq_norm] at near
      rw [← Point.norm_toSpace] at remote ⊢
      exact (norm_le_norm_sub_add _ sample.remote.toSpace).trans (add_le_add near remote)
    have gap : |sample.counted - state.coordinate.distance sample.remote| ≤
        longest + Scalar.epsilon := by
      have predicted_nonneg := Point.distance_nonneg state.coordinate sample.remote
      have counted_nonneg := counted_nonneg admissible
      exact abs_le.mpr ⟨by linarith, by linarith⟩
    have far : |state.step parameters sample *
        (sample.counted - state.coordinate.distance sample.remote)| ≤
          longest + Scalar.epsilon := by
      rw [abs_mul, abs_of_nonneg step_nonneg]
      exact (mul_le_of_le_one_left (abs_nonneg _) step_le_one).trans gap
    have enough : radius + longest + 2 * Scalar.epsilon ≤ reach parameters radius longest :=
      sum_le_reach steady radius_nonneg
    calc (state.moved parameters sample spare).coordinate.norm
        ≤ state.coordinate.norm + |state.step parameters sample *
            (sample.counted - state.coordinate.distance sample.remote)| :=
          State.norm_moved_near near
      _ ≤ reach parameters radius longest := by linarith

theorem initial_within (steady : parameters.Steady) (radius_nonneg : 0 ≤ radius)
    (longest_nonneg : 0 ≤ longest) : State.Within parameters radius longest .initial where
  norm := by
    have start : (State.initial : State ℝ).coordinate.norm = 0 := by
      rw [← Point.norm_toSpace, norm_eq_zero]
      ext place
      fin_cases place <;> exact Nat.cast_zero
    have epsilon_pos : (0 : ℝ) < Scalar.epsilon := Scalar.epsilon_pos
    have enough : radius + longest + 2 * Scalar.epsilon ≤ reach parameters radius longest :=
      sum_le_reach steady radius_nonneg
    rw [start]
    linarith
  error_nonneg := Nat.cast_nonneg 1
  error_le_one := Nat.cast_one.le

/-- Whatever samples come, in whatever order, the coordinate stays within reach of the origin, and
the error stays a confidence. The errors of the peers and the spare directions may be anything: an
error that is no usable number counts as one, and a direction without a length as the first axis. -/
theorem run_bounded {observations : List (Observation ℝ)} (steady : parameters.Steady)
    (radius_nonneg : 0 ≤ radius) (longest_nonneg : 0 ≤ longest)
    (tame : ∀ observation ∈ observations, observation.Tame radius longest) :
    (State.initial.run parameters observations).Within parameters radius longest := by
  refine State.run_preserves _ (initial_within steady radius_nonneg longest_nonneg) ?_
  intro observation member admissible now within
  obtain ⟨remote, short⟩ := tame observation member
  have confidence : (Scalar.ofNat 0 : ℝ) ≤ Scalar.ofNat 1 := by simp
  refine ⟨?_, ?_, ?_⟩
  · exact norm_moved_le steady radius_nonneg longest_nonneg remote admissible (short admissible)
      within.norm
  · exact Nat.cast_zero.ge.trans (Scalar.le_clamp confidence)
  · exact (Scalar.clamp_le confidence).trans Nat.cast_one.le

end Reach

theorem standard_steady : (Parameters.standard : Parameters ℝ).Steady := by
  constructor <;> simp [Parameters.standard] <;> norm_num

/-- A peer that is nearer than its distance says, then one at the origin and without any delay. -/
theorem run_bounded_pair :
    (State.initial.run Parameters.standard
      [⟨⟨⟨3, 4, 0⟩, 1, 3⟩, Point.axis⟩, ⟨⟨⟨0, 0, 0⟩, 2, 0⟩, Point.axis⟩]).Within
        Parameters.standard 5 7 := by
  refine run_bounded standard_steady (by norm_num) (by norm_num) ?_
  have shorter (sample : Sample ℝ) (below : sample.roundTrip ≤ 7) : sample.counted ≤ 7 := by
    rw [Sample.counted, Scalar.atMost_eq_min]
    exact (min_le_right _ _).trans below
  simp only [List.forall_mem_cons, List.not_mem_nil, false_imp_iff, implies_true, and_true]
  refine ⟨⟨?_, fun _ => shorter _ (by norm_num)⟩, ⟨?_, fun _ => shorter _ (by norm_num)⟩⟩
  · have norm_le : √(3 * 3 + 4 * 4 + 0 * 0) ≤ 5 := Real.sqrt_le_iff.mpr (by norm_num)
    exact norm_le
  · have norm_le : √(0 * 0 + 0 * 0 + 0 * 0) ≤ 5 := Real.sqrt_le_iff.mpr (by norm_num)
    exact norm_le

end Overlay.Vivaldi
