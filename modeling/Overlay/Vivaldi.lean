import Overlay.Coordinate

/-!
The adaptive spring rule that moves a coordinate after each latency sample.

A node keeps an error estimate between zero and one. The less sure it is compared with the peer it
measured, the further it moves along the line between the two coordinates.
-/

set_option autoImplicit false

namespace Overlay.Vivaldi

/-- The constants of the rule. -/
structure Parameters (α : Type) where
  errorGain : α
  coordinateGain : α
  minStep : α
  maxStep : α
deriving Inhabited, Repr

/-- A coordinate together with the confidence in it: `error` is the smoothed relative error of its
predictions, and one means no confidence. -/
structure State (α : Type) where
  coordinate : Point α
  error : α
deriving DecidableEq, Inhabited, Repr

/-- One measured round trip and what the peer said about itself. -/
structure Sample (α : Type) where
  remote : Point α
  remoteError : α
  roundTrip : α
deriving DecidableEq, Inhabited, Repr

/-- Why a sample is refused. -/
inductive Rejection (α : Type)
  | roundTrip (measured : α)
  | remoteNotFinite
deriving Repr

variable {α : Type} [Scalar α]

open Scalar (ofNat)

/-- Round trips above one minute count as one minute. -/
def longestRoundTrip : α := ofNat 60000

/-- Gains of one quarter, and steps between one twentieth and one quarter. -/
def Parameters.standard : Parameters α :=
  { errorGain := ofNat 1 / ofNat 4
    coordinateGain := ofNat 1 / ofNat 4
    minStep := ofNat 1 / ofNat 20
    maxStep := ofNat 1 / ofNat 4 }

/-- The origin, without any confidence. -/
def State.initial : State α := ⟨Point.origin, ofNat 1⟩

/-- The peer's error as it enters the rule: at most one, and one if it is no usable number. -/
def trustedError (remoteError : α) : α :=
  if Scalar.isFinite remoteError then Scalar.clamp (ofNat 0) (ofNat 1) remoteError else ofNat 1

/-- The share of the correction that this node takes: its own part of the two errors. -/
def weight (localError remoteError : α) : α :=
  if Scalar.lt (ofNat 0) (localError + remoteError) then localError / (localError + remoteError)
  else ofNat 1 / ofNat 2

/-- The fraction of the gap that one sample closes. -/
def stepSize (parameters : Parameters α) (share : α) : α :=
  Scalar.clamp parameters.minStep parameters.maxStep (parameters.coordinateGain * share)

/-- The line along which a coordinate moves: away from the peer, or along `spare` where the two
coordinates coincide. -/
def direction (place remote spare : Point α) : Point α :=
  let predicted := place.distance remote
  if Scalar.lt Scalar.epsilon predicted then (place - remote).scale (ofNat 1 / predicted)
  else spare.unit

/-- The error estimate after a sample, a blend of the old one and the error of this prediction. -/
def blendedError (parameters : Parameters α) (localError share predicted roundTrip : α) : α :=
  let relative := Scalar.abs (predicted - roundTrip) / Scalar.atLeast (ofNat 1) roundTrip
  let gain := parameters.errorGain * share
  Scalar.clamp (ofNat 0) (ofNat 1) (relative * gain + localError * (ofNat 1 - gain))

/-- Whether a measured time is finite and not negative. -/
def isRoundTrip (measured : α) : Bool :=
  Scalar.isFinite measured && !Scalar.lt measured (ofNat 0)

/-- The state after an admissible sample. -/
def State.moved (parameters : Parameters α) (state : State α) (sample : Sample α)
    (spare : Point α) : State α :=
  let roundTrip := Scalar.atMost longestRoundTrip sample.roundTrip
  let localError := Scalar.clamp (ofNat 0) (ofNat 1) state.error
  let share := weight localError (trustedError sample.remoteError)
  let predicted := state.coordinate.distance sample.remote
  let heading := direction state.coordinate sample.remote spare
  { coordinate :=
      state.coordinate + heading.scale (stepSize parameters share * (roundTrip - predicted))
    error := blendedError parameters localError share predicted roundTrip }

/-- Applies one sample. The answer is the new state with the distance it predicts; a refused sample
changes nothing. -/
def State.apply (parameters : Parameters α) (state : State α) (sample : Sample α)
    (spare : Point α) : Except (Rejection α) (State α × α) :=
  if !isRoundTrip sample.roundTrip then .error (.roundTrip sample.roundTrip)
  else if !sample.remote.isFinite then .error .remoteNotFinite
  else
    let next := state.moved parameters sample spare
    .ok (next, next.coordinate.distance sample.remote)

end Overlay.Vivaldi
