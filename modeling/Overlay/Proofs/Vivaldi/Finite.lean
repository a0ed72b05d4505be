import Overlay.Proofs.Vivaldi.Norm
import Overlay.Proofs.Vivaldi.Samples

/-!
When samples leave a coordinate of doubles finite.

The rule checks that the peer's coordinate is finite, not that the distance to it is. A distance that
overflows leaves a coordinate that is not finite (`near_of_moved`), and no sample makes it finite
again. Every other sample leaves the coordinate finite and the error a confidence (`isSound_moved`),
so samples keep a coordinate finite just if none of their distances overflows
(`run_isFinite_iff_foresees`).
-/

set_option autoImplicit false

namespace Overlay.Vivaldi

open Binary64

/-- A finite number between zero and one. -/
def isConfidence {α : Type} [Scalar α] (error : α) : Bool :=
  Scalar.isFinite error && !Scalar.lt error (Scalar.ofNat 0) && !Scalar.lt (Scalar.ofNat 1) error

theorem isConfidence_iff {error : Binary64} :
    isConfidence error ↔ error.isFinite ∧ 0 ≤ error.value ∧ error.value ≤ 1 := by
  have low (finite : error.isFinite) : error.lt zero = false ↔ 0 ≤ error.value := by
    rw [← Bool.not_eq_true, lt_iff_value_lt finite rfl, value_zero, not_lt]
  have high (finite : error.isFinite) : Binary64.one.lt error = false ↔ error.value ≤ 1 := by
    rw [← Bool.not_eq_true, lt_iff_value_lt rfl finite, value_one, not_lt]
  rw [isConfidence, ofNat_zero, ofNat_one, Bool.and_eq_true_iff, Bool.and_eq_true_iff,
    Bool.not_eq_true', Bool.not_eq_true', and_assoc]
  exact and_congr_right fun finite => and_congr (low finite) (high finite)

theorem isConfidence_clamp {number : Binary64} (finite : number.isFinite) :
    isConfidence (Scalar.clamp (Scalar.ofNat 0) (Scalar.ofNat 1) number) := by
  rw [Scalar.clamp]
  split
  · decide +kernel
  · next atLeast =>
      split
      · decide +kernel
      · next atMost =>
          rw [isConfidence, Bool.eq_false_iff.mpr atLeast, Bool.eq_false_iff.mpr atMost]
          exact Bool.and_eq_true_iff.mpr ⟨Bool.and_eq_true_iff.mpr ⟨finite, rfl⟩, rfl⟩

theorem isConfidence_trustedError (error : Binary64) : isConfidence (trustedError error) := by
  rw [trustedError]
  split
  · next finite => exact isConfidence_clamp finite
  · decide +kernel

theorem within_of_isConfidence {error : Binary64} (confidence : isConfidence error) :
    Binary64.Within 0 error := by
  obtain ⟨finite, nonneg, atMost⟩ := isConfidence_iff.mp confidence
  exact ⟨finite, by rwa [abs_of_nonneg nonneg, zpow_zero]⟩

/-- The share of two confidences is no infinity: as far as powers of two tell, their sum is not
below the own one. -/
theorem weight_within {localError remoteError : Binary64} (own : isConfidence localError)
    (other : isConfidence remoteError) : Binary64.Within 1 (weight localError remoteError) := by
  obtain ⟨finite, nonneg, -⟩ := isConfidence_iff.mp own
  obtain ⟨-, otherNonneg, -⟩ := isConfidence_iff.mp other
  have sum := (within_of_isConfidence own).add (within_of_isConfidence other)
    (by decide)
  rw [weight]
  split
  · next positive =>
      rw [ofNat_zero] at positive
      have sum_pos : 0 < (localError + remoteError).value :=
        (lt_iff_value_lt rfl sum.finite).mp positive
      refine within_of_rounds (div_rounds finite sum.finite sum_pos.ne')
        (by decide) ?_
      rcases nonneg.eq_or_lt with none | some
      · rw [← none, zero_div, abs_zero]
        positivity
      · obtain ⟨power, low, high⟩ := exists_mem_Ico_zpow some one_lt_two
        have least : -1074 < power + 1 := by
          have smallest := (settled_unpacked localError).le_abs_real some.ne'
          rw [← value, abs_of_pos some] at smallest
          exact (zpow_lt_zpow_iff_right₀ one_lt_two).mp (smallest.trans_lt high)
        have sum_ge : 2 ^ power ≤ (localError + remoteError).value :=
          le_sum sum.finite nonneg otherNonneg (by omega) (Or.inl low)
        rw [abs_of_nonneg (div_nonneg nonneg sum_pos.le), div_le_iff₀ sum_pos, zpow_one]
        rw [zpow_add_one₀ two_ne_zero] at high
        linarith
  · have confidence : isConfidence (Scalar.ofNat 1 / Scalar.ofNat 2 : Binary64) := by
      decide +kernel
    exact (within_of_isConfidence confidence).mono (by norm_num)

section Step

variable {parameters : Parameters Binary64} {share : Binary64}

/-- Gains and steps between zero and one. -/
def Parameters.isModerate (parameters : Parameters Binary64) : Bool :=
  isConfidence parameters.errorGain && isConfidence parameters.coordinateGain &&
    isConfidence parameters.minStep && isConfidence parameters.maxStep

theorem standard_isModerate : (Parameters.standard : Parameters Binary64).isModerate := by
  decide +kernel

theorem stepSize_within (moderate : parameters.isModerate) (within : Binary64.Within 1 share) :
    Binary64.Within 1 (stepSize parameters share) := by
  simp only [Parameters.isModerate, Bool.and_eq_true] at moderate
  obtain ⟨⟨⟨-, gain⟩, least⟩, most⟩ := moderate
  rw [stepSize, Scalar.clamp]
  split
  · exact (within_of_isConfidence least).mono (by norm_num)
  · split
    · exact (within_of_isConfidence most).mono (by norm_num)
    · exact (within_of_isConfidence gain).mul within (by decide)

theorem value_longestRoundTrip : (longestRoundTrip : Binary64).value = 60000 := by
  have bits : (longestRoundTrip : Binary64) = ⟨0x40ed4c0000000000⟩ := by decide +kernel
  have unpacked_longest : (⟨0x40ed4c0000000000⟩ : Binary64).unpacked =
      .finite .positive (60000 * 2 ^ 37) (-37) (by norm_num) := rfl
  rw [bits, value, unpacked_longest, real, unitOfSign]
  norm_num

theorem atMost_longest_within {measured : Binary64} (usable : isRoundTrip measured) :
    Binary64.Within 16 (Scalar.atMost longestRoundTrip measured) := by
  obtain ⟨finite, notNegative⟩ := Bool.and_eq_true_iff.mp usable
  have longest_finite : (longestRoundTrip : Binary64).isFinite := by decide +kernel
  have nonneg : 0 ≤ measured.value := by
    rw [ofNat_zero, Bool.not_eq_true', ← Bool.not_eq_true] at notNegative
    rw [← value_zero]
    exact not_lt.mp (mt (lt_iff_value_lt finite rfl).mpr notNegative)
  rw [Scalar.atMost]
  split
  · refine ⟨longest_finite, ?_⟩
    rw [value_longestRoundTrip]
    norm_num
  · next short =>
      have atMost : measured.value ≤ 60000 := by
        rw [← value_longestRoundTrip]
        exact not_lt.mp (mt (lt_iff_value_lt longest_finite finite).mpr short)
      refine ⟨finite, ?_⟩
      rw [abs_of_nonneg nonneg]
      exact atMost.trans (by norm_num)

/-- The error of a prediction is set against one millisecond at least. -/
theorem one_le_atLeast {roundTrip : Binary64} (finite : roundTrip.isFinite) :
    (Scalar.atLeast (Scalar.ofNat 1) roundTrip).isFinite ∧
      1 ≤ (Scalar.atLeast (Scalar.ofNat 1) roundTrip).value := by
  rw [ofNat_one, Scalar.atLeast]
  split
  · exact ⟨rfl, value_one.ge⟩
  · next long =>
      refine ⟨finite, ?_⟩
      rw [← value_one]
      exact not_lt.mp (mt (lt_iff_value_lt finite rfl).mpr long)

theorem isConfidence_blendedError {localError predicted roundTrip : Binary64}
    (moderate : parameters.isModerate) (own : isConfidence localError)
    (within : Binary64.Within 1 share) (near : Binary64.Within 512 predicted)
    (short : Binary64.Within 16 roundTrip) :
    isConfidence (blendedError parameters localError share predicted roundTrip) := by
  simp only [Parameters.isModerate, Bool.and_eq_true] at moderate
  obtain ⟨⟨⟨errorGain, -⟩, -⟩, -⟩ := moderate
  obtain ⟨finite, atLeast⟩ := one_le_atLeast short.finite
  have gap := (near.sub (short.mono (by norm_num)) (by decide)).abs
  have relative : Binary64.Within 513
      (Scalar.abs (predicted - roundTrip) / Scalar.atLeast (Scalar.ofNat 1) roundTrip) := by
    have above : (2 : ℝ) ^ (0 : ℤ) ≤ |(Scalar.atLeast (Scalar.ofNat 1) roundTrip).value| := by
      rw [zpow_zero]
      exact atLeast.trans (le_abs_self _)
    exact gap.div finite above (by decide)
  have gain := (within_of_isConfidence errorGain).mul within (by decide)
  have rest : Binary64.Within 2 (Scalar.ofNat 1 - parameters.errorGain * share) := by
    rw [ofNat_one]
    exact (within_one.mono (by norm_num)).sub gain (by decide)
  have blend := (relative.mul gain (by decide)).add
    (((within_of_isConfidence own).mul rest (by decide)).mono (by norm_num)) (by decide)
  exact isConfidence_clamp blend.finite

theorem direction_within {place remote : Coordinate} (spare : Coordinate)
    (finite : (place.distance remote).isFinite) : (direction place remote spare).Within 1 := by
  rw [direction]
  split
  · next apart => exact Point.scale_inverse_within finite apart
  · exact Point.unit_within spare

namespace State

variable {state : State Binary64} {sample : Sample Binary64} {spare : Coordinate}

/-- A finite coordinate, and an error that is a confidence. -/
def isSound {α : Type} [Scalar α] (state : State α) : Bool :=
  state.coordinate.isFinite && isConfidence state.error

/-- A sample to which the distance does not overflow leaves a sound state sound. -/
theorem isSound_moved (moderate : parameters.isModerate) (sound : state.isSound)
    (admissible : sample.isAdmissible)
    (near : (state.coordinate.distance sample.remote).isFinite) :
    (state.moved parameters sample spare).isSound := by
  obtain ⟨placed, confidence⟩ := Bool.and_eq_true_iff.mp sound
  obtain ⟨usable, -⟩ := Bool.and_eq_true_iff.mp admissible
  simp only [Point.isFinite, Bool.and_eq_true] at placed
  obtain ⟨⟨finiteX, finiteY⟩, finiteZ⟩ := placed
  have own := isConfidence_clamp (isConfidence_iff.mp confidence).1
  have share := weight_within own (isConfidence_trustedError sample.remoteError)
  have roundTrip := atMost_longest_within usable
  have predicted := (Point.measurable near).norm_within
  -- a distance that is finite takes half of the exponents, and the gap little more
  have gap := (roundTrip.mono (by norm_num)).sub predicted (by decide)
  have change := (stepSize_within moderate share).mul gap (by decide)
  have move := Point.scale_within (direction_within spare near) change (by decide)
  have coordinate : (state.moved parameters sample spare).coordinate.isFinite := by
    simp only [Point.isFinite, Bool.and_eq_true]
    exact ⟨⟨move.x.isFinite_add finiteX (by norm_num), move.y.isFinite_add finiteY (by norm_num)⟩,
      move.z.isFinite_add finiteZ (by norm_num)⟩
  have error := isConfidence_blendedError moderate own share predicted roundTrip
  exact Bool.and_eq_true_iff.mpr ⟨coordinate, error⟩

/-- A coordinate that is not finite is lost, and so is one that is too far from the peer. -/
theorem near_of_moved (finite : (state.moved parameters sample spare).coordinate.isFinite) :
    state.coordinate.isFinite ∧ (state.coordinate.distance sample.remote).isFinite := by
  simp only [Point.isFinite, Bool.and_eq_true] at finite ⊢
  obtain ⟨⟨x, y⟩, z⟩ := finite
  obtain ⟨placedX, movedX⟩ := isFinite_of_add x
  -- a gap that is not finite spoils the product even where the direction is zero
  have gap := (isFinite_of_mul (isFinite_of_mul movedX).2).2
  exact ⟨⟨⟨placedX, (isFinite_of_add y).1⟩, (isFinite_of_add z).1⟩, (isFinite_of_sub gap).2⟩

end State

end Step

section Run

variable (parameters : Parameters Binary64)

/-- The distance to the peer does not overflow where an admissible sample finds the coordinate. -/
def State.foresees : State Binary64 → List (Observation Binary64) → Bool
  | _, [] => true
  | state, observation :: rest =>
    (!observation.sample.isAdmissible ||
      (state.coordinate.distance observation.sample.remote).isFinite) &&
    State.foresees (state.after parameters observation) rest

variable {parameters} {state : State Binary64} {observations : List (Observation Binary64)}

/-- A coordinate that is not finite stays so. -/
theorem isFinite_of_run (finite : (state.run parameters observations).coordinate.isFinite) :
    state.coordinate.isFinite := by
  induction observations generalizing state with
  | nil => exact finite
  | cons observation rest ih =>
      have after := ih finite
      rw [State.after_eq] at after
      split at after
      · exact (State.near_of_moved after).1
      · exact after

theorem isSound_run (moderate : parameters.isModerate) (sound : state.isSound)
    (foresees : state.foresees parameters observations) :
    (state.run parameters observations).isSound := by
  induction observations generalizing state with
  | nil => exact sound
  | cons observation rest ih =>
      rw [State.foresees, Bool.and_eq_true] at foresees
      obtain ⟨near, foresees⟩ := foresees
      refine ih ?_ foresees
      rw [State.after_eq]
      split
      · next admissible =>
          rw [admissible] at near
          exact State.isSound_moved moderate sound admissible near
      · exact sound

theorem foresees_of_run (finite : (state.run parameters observations).coordinate.isFinite) :
    state.foresees parameters observations := by
  induction observations generalizing state with
  | nil => rfl
  | cons observation rest ih =>
      rw [State.foresees, ih finite, Bool.and_true]
      cases admissible : observation.sample.isAdmissible with
      | false => rfl
      | true =>
          have after : (state.after parameters observation).coordinate.isFinite :=
            isFinite_of_run finite
          rw [State.after_eq, if_pos admissible] at after
          exact (State.near_of_moved after).2

/-- From a sound state, samples keep the coordinate finite just if none of the distances that they
meet overflows, and then they keep the error a confidence too. -/
theorem run_isFinite_iff_foresees (sound : state.isSound) :
    ((state.run .standard observations).coordinate.isFinite ↔
        state.foresees .standard observations) ∧
      (state.foresees .standard observations → (state.run .standard observations).isSound) := by
  have keeps (foresees : state.foresees .standard observations) :
      (state.run .standard observations).isSound :=
    isSound_run standard_isModerate sound foresees
  refine ⟨⟨foresees_of_run, fun foresees => ?_⟩, keeps⟩
  exact (Bool.and_eq_true_iff.mp (keeps foresees)).1

/-- A sample of ten milliseconds, from a peer on the first axis that is half sure of its place. -/
def onAxis (place : Binary64) : Observation Binary64 where
  sample :=
    { remote := ⟨place, zero, zero⟩
      remoteError := ⟨0x3fe0000000000000⟩
      roundTrip := ⟨0x4024000000000000⟩ }
  spare := Point.axis

/-- Three units away, then nowhere, then three units away again. -/
def refusedBetween : List (Observation Binary64) :=
  [onAxis ⟨0x4008000000000000⟩, onAxis infinity, onAxis ⟨0x4008000000000000⟩]

theorem run_isFinite_iff_foresees_refused :
    (State.initial : State Binary64).isSound ∧
      State.initial.foresees .standard refusedBetween ∧
      ((State.initial.run .standard refusedBetween).coordinate.isFinite ↔
        State.initial.foresees .standard refusedBetween) ∧
      (State.initial.foresees .standard refusedBetween →
        (State.initial.run .standard refusedBetween).isSound) :=
  ⟨by decide +kernel, by decide +kernel, run_isFinite_iff_foresees (by decide +kernel)⟩

/-- Ten to the power of two hundred is a place, and too far away for the distance to be a number:
one admissible sample loses a sound coordinate. -/
theorem run_lost_overflow :
    (State.initial : State Binary64).isSound ∧ (onAxis ⟨0x6974e718d7d7625a⟩).sample.isAdmissible ∧
      ¬(State.initial.run .standard [onAxis ⟨0x6974e718d7d7625a⟩]).coordinate.isFinite := by
  decide +kernel

end Run

end Overlay.Vivaldi
