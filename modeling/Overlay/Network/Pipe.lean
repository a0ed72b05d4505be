import Overlay.Program.Request

/-!
One direction of a byte stream: bytes wait in it until they are read, at most as many as fit.
-/

set_option autoImplicit false

namespace Overlay

/-- One direction of a byte stream. -/
structure Pipe where
  content : Wire.Bytes
  /-- How many bytes fit; any number without a capacity. -/
  capacity : Option Nat
  /-- Set once either side is gone. What is in the pipe can still be read. -/
  isClosed : Bool
  /-- The worker that waits for bytes. -/
  reader : Option WorkerId
  /-- The worker that waits for room. -/
  writer : Option WorkerId
deriving DecidableEq, Inhabited, Repr

namespace Pipe

/-- An empty pipe. -/
def empty (capacity : Option Nat) : Pipe := ⟨[], capacity, false, none, none⟩

/-- How many of the given bytes fit now. -/
def room (pipe : Pipe) (bytes : Wire.Bytes) : Nat :=
  match pipe.capacity with
  | some capacity => min (capacity - pipe.content.length) bytes.length
  | none => bytes.length

/-- The first bytes, up to a number, and the pipe without them. -/
def take (pipe : Pipe) (count : Nat) : Wire.Bytes × Pipe :=
  (pipe.content.take count, { pipe with content := pipe.content.drop count, writer := none })

/-- The pipe with more bytes in it. -/
def put (pipe : Pipe) (bytes : Wire.Bytes) : Pipe :=
  { pipe with content := pipe.content ++ bytes, reader := none }

/-- The pipe after one side is gone. -/
def close (pipe : Pipe) : Pipe :=
  { pipe with isClosed := true, reader := none, writer := none }

end Pipe

end Overlay
