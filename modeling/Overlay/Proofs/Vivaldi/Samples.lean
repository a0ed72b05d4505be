import Overlay.Vivaldi

/-!
Samples one after the other.

A refused sample changes nothing, so what every admissible sample keeps up holds throughout
(`run_preserves`).
-/

set_option autoImplicit false

namespace Overlay.Vivaldi

variable {α : Type} [Scalar α]

/-- A sample, with the direction to take where the two coordinates coincide. -/
structure Observation (α : Type) where
  sample : Sample α
  spare : Point α
deriving DecidableEq, Inhabited, Repr

/-- Whether a sample is not refused. -/
def Sample.isAdmissible (sample : Sample α) : Bool :=
  isRoundTrip sample.roundTrip && sample.remote.isFinite

namespace State

variable (parameters : Parameters α)

/-- The state after one sample. -/
def after (state : State α) (observation : Observation α) : State α :=
  match state.apply parameters observation.sample observation.spare with
  | .ok (next, _) => next
  | .error _ => state

/-- The state after some samples. -/
def run (state : State α) (observations : List (Observation α)) : State α :=
  observations.foldl (after parameters) state

variable {parameters} {state : State α}

/-- Just the admissible samples are accepted, and the answer is what the new state predicts. -/
theorem apply_eq_ok {sample : Sample α} {spare : Point α} {next : State α} {predicted : α} :
    state.apply parameters sample spare = .ok (next, predicted) ↔
      sample.isAdmissible ∧ next = state.moved parameters sample spare ∧
        predicted = next.coordinate.distance sample.remote := by
  rw [apply, Sample.isAdmissible]
  cases isRoundTrip sample.roundTrip with
  | false => simp
  | true =>
      cases sample.remote.isFinite with
      | false => simp
      | true =>
          constructor
          · intro applied
            cases applied
            exact ⟨rfl, rfl, rfl⟩
          · rintro ⟨_, rfl, rfl⟩
            rfl

theorem after_eq (observation : Observation α) : state.after parameters observation =
    if observation.sample.isAdmissible then
      state.moved parameters observation.sample observation.spare
    else state := by
  rw [after, apply, Sample.isAdmissible]
  cases isRoundTrip observation.sample.roundTrip <;>
    cases observation.sample.remote.isFinite <;> rfl

/-- What every admissible one of some samples keeps up, they keep up together. -/
theorem run_preserves {observations : List (Observation α)} (holds : State α → Prop)
    (begins : holds state)
    (moves : ∀ observation ∈ observations, observation.sample.isAdmissible → ∀ now, holds now →
      holds (now.moved parameters observation.sample observation.spare)) :
    holds (state.run parameters observations) := by
  induction observations generalizing state with
  | nil => exact begins
  | cons observation rest ih =>
      obtain ⟨move, moves⟩ := List.forall_mem_cons.mp moves
      refine ih ?_ moves
      rw [after_eq]
      split
      · next admissible => exact move admissible state begins
      · exact begins

end State

end Overlay.Vivaldi
