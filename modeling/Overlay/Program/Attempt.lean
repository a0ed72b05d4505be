import Overlay.Program.Basic
import Overlay.Wire.Frame

/-!
Programs that may fail, and the time limits and streams they work with.

A limit inside another one counts only if it is not later: of two limits that are over at the same
moment, the inner one is reported.
-/

set_option autoImplicit false

namespace Overlay

/-- The moment until which an activity may take. -/
structure Limit where
  deadline : Instant
  activity : Activity
deriving DecidableEq, Inhabited, Repr

namespace Limit

/-- What is reported when the time is up. -/
def failure (limit : Limit) : Failure := .timeout limit.activity

/-- The limit that counts where `limit` is set inside `outer`. -/
def within (limit : Limit) (outer : Option Limit) : Limit :=
  match outer with
  | some earlier => if earlier.deadline.tick < limit.deadline.tick then earlier else limit
  | none => limit

end Limit

/-- A program that may fail. -/
abbrev Attempt (σ : Type) : Type → Type := ExceptT Failure (Program σ)

namespace Attempt

variable {σ α : Type}

/-- A program that cannot fail, as an attempt. -/
def perform (program : Program σ α) : Attempt σ α := ExceptT.lift program

/-- A limit that starts now. -/
def limit (activity : Activity) (span : Duration) (outer : Option Limit) : Attempt σ Limit := do
  let now ← perform Program.now
  pure (Limit.within ⟨now.after span, activity⟩ outer)

/-- Exactly `count` bytes; `fault` tells how a stream that ends before is reported. -/
def receive (stream : StreamId) (count : Nat) (fault : StreamFault) (limit : Limit) :
    Attempt σ Wire.Bytes := do
  match ← perform (Program.read stream count (some limit.deadline)) with
  | .bytes content => pure content
  | .ended => throw (.wire (.stream fault))
  | .expired => throw limit.failure

/-- One byte. -/
def receiveByte (stream : StreamId) (limit : Limit) : Attempt σ UInt8 := do
  let bytes ← receive stream 1 .endInNumber limit
  pure (bytes.headD 0)

/-- One frame. A length above the maximum is refused before the body is read. -/
def receiveFrame (layout : Wire.Layout α) (stream : StreamId) (maximum : Nat) (limit : Limit) :
    Attempt σ α := do
  let header ← receive stream 4 .endInNumber limit
  let length := Wire.ofHighestFirst header
  if maximum < length then throw (.wire (.tooLarge length maximum))
  else
    let body ← receive stream length .endInBlock limit
    match Wire.decodeBody layout body with
    | .ok value => pure value
    | .error fault => throw (.wire fault)

def send (stream : StreamId) (bytes : Wire.Bytes) (limit : Limit) : Attempt σ Unit := do
  match ← perform (Program.write stream bytes (some limit.deadline)) with
  | .written => pure ()
  | .broken => throw (.wire (.stream .brokenPipe))
  | .expired => throw limit.failure

/-- One frame; a body above the maximum is not sent at all. -/
def sendFrame (layout : Wire.Layout α) (stream : StreamId) (value : α) (maximum : Nat)
    (limit : Limit) : Attempt σ Unit := do
  match Wire.encodeFrame layout value maximum with
  | .ok frame => send stream frame limit
  | .error fault => throw (.wire fault)

/-- Runs an attempt that holds a stream; the stream is closed after it, however it ends. -/
def closing (stream : StreamId) (attempt : Attempt σ α) : Attempt σ α := ExceptT.mk do
  let result ← attempt.run
  Program.close stream
  pure result

/-- Connects and runs an attempt on the stream, which is closed after it. -/
def connected (address : SocketAddress) (tag : Wire.ServiceTag) (patience : Duration)
    (limit : Limit) (attempt : StreamId → Attempt σ α) : Attempt σ α := do
  match ← perform (Program.connect address tag patience limit.deadline) with
  | .opened stream => closing stream (attempt stream)
  | .failed fault => throw (.transport fault)
  | .expired => throw limit.failure

/-- Reports an event if an attempt fails. -/
def reporting (event : Failure → Event) (attempt : Attempt σ α) : Attempt σ α := ExceptT.mk do
  let result ← attempt.run
  match result with
  | .ok value => pure (.ok value)
  | .error failure => do
    Program.report (event failure)
    pure (.error failure)

end Attempt

end Overlay
