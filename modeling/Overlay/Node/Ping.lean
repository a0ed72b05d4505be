import Overlay.Node.State
import Overlay.Wire.CoordinateBlock

/-!
Measuring the way to another node, and moving the own coordinate by what was measured.

The answering side tells its coordinate and then sends every byte back. The asking side sends the
bytes zero, one, two and so on, one after the other, and takes the least time that one took.
-/

set_option autoImplicit false

namespace Overlay.Node

open Attempt

/-- The number of bytes that a ping sends. -/
def echoRounds (settings : Settings) : Nat := max 1 (min settings.pingTries.toNat 256)

/-- Sends bytes from `next` on and waits for each to come back. The answer is the least time that a
byte took, or `best` if that is less. -/
def echo (stream : StreamId) (limit : Limit) : Nat → UInt8 → Binary64 → Attempt Node Binary64
  | 0, _, best => pure best
  | rounds + 1, next, best => do
    let before ← perform Program.now
    send stream [next] limit
    let received ← receiveByte stream limit
    if received != next then throw (.echoMismatch next received)
    else do
      let after ← perform Program.now
      let roundTrip := (Duration.ofMillis (after.tick - before.tick)).millis
      echo stream limit rounds (next + 1) (Binary64.min best roundTrip)

/-- Measures the way to an address. -/
def measure (address : SocketAddress) : Attempt Node (Vivaldi.Sample Binary64) := do
  let settings := (← get).settings
  let limit ← limit .ping settings.patience none
  connected address .vivaldi settings.patience limit fun stream => do
    let bytes ← receive stream Wire.CoordinateBlock.size .endInBlock limit
    let block := Wire.CoordinateBlock.decode bytes
    let roundTrip ← echo stream limit (echoRounds settings) 0 .infinity
    pure ⟨block.coordinate, block.error, roundTrip⟩

/-- Moves the own coordinate by a sample and publishes it. The answer is the distance that the new
coordinate predicts. -/
def observe (sample : Vivaldi.Sample Binary64) : Attempt Node Binary64 := do
  let spare ← perform (draw Dice.direction)
  match (← get).position.apply .standard sample spare with
  | .error rejection => throw rejection.failure
  | .ok (position, predicted) => do
    modify fun node => { node with position }.publish position.coordinate
    pure predicted

/-- Measures the way to an address, and moves the own coordinate by it if `update` is set. -/
def ping (address : SocketAddress) (update : Bool) : Attempt Node (Vivaldi.Sample Binary64) := do
  let sample ← measure address
  perform (Program.report (.pingCompleted address sample.roundTrip))
  if update then do
    let _ ← observe sample
    pure sample
  else pure sample

/-- Sends up to the given number of bytes back, each as it comes. -/
def echoBack (stream : StreamId) (limit : Limit) : Nat → Attempt Node Unit
  | 0 => pure ()
  | rounds + 1 => do
    match ← perform (Program.read stream 1 (some limit.deadline)) with
    | .bytes content => do
      send stream content limit
      echoBack stream limit rounds
    | .ended => pure ()
    | .expired => throw limit.failure

/-- Answers on a stream whose tag was read. A peer that hangs up early is no failure. -/
def serveEcho (stream : StreamId) (outer : Option Limit) : Attempt Node Unit := do
  let node ← get
  let limit ← limit .echo node.settings.patience outer
  send stream (Wire.CoordinateBlock.encode ⟨node.position.coordinate, node.position.error⟩) limit
  echoBack stream limit (echoRounds node.settings)

end Overlay.Node
