import Overlay.Failure
import Overlay.Wire.Layout

/-!
Frames: a body after its length in four bytes, highest first.

A body above the writer's limit is not written at all, and a length above the reader's limit is
refused before any byte of the body is taken.
-/

set_option autoImplicit false

namespace Overlay.Wire

variable {α : Type}

/-- The bytes of a body, if the limit admits them. -/
def encodeBody (layout : Layout α) (value : α) (limit : Nat) : Except WireFault Bytes :=
  let body := layout.write value
  if limit < body.length ∨ UInt32.size ≤ body.length then .error (.tooLarge body.length limit)
  else .ok body

/-- The value of a body; bytes after it are passed over. -/
def decodeBody (layout : Layout α) (body : Bytes) : Except WireFault α :=
  match layout.read body with
  | .ok (value, _) => .ok value
  | .error fault => .error (.notReadable fault.message)

/-- The bytes of a frame, if the limit admits its body. -/
def encodeFrame (layout : Layout α) (value : α) (limit : Nat) : Except WireFault Bytes := do
  let body ← encodeBody layout value limit
  pure (highestFirst 4 body.length ++ body)

/-- The first frame of a byte string: its value or what is wrong with it, and the bytes left over,
if the string holds the frame to its end. -/
def readFrame (layout : Layout α) (limit : Nat) (bytes : Bytes) :
    Except WireFault α × Option Bytes :=
  match takeBytes? 4 bytes with
  | none => (.error (.stream .endInNumber), none)
  | some (header, rest) =>
    let length := ofHighestFirst header
    if limit < length then (.error (.tooLarge length limit), some rest)
    else match takeBytes? length rest with
      | none => (.error (.stream .endInBlock), none)
      | some (body, rest) => (decodeBody layout body, some rest)

/-- Reads frames, up to a given number, until none is left or one is wrong. -/
def readFrames (layout : Layout α) (limit : Nat) :
    Nat → Bytes → List (Except WireFault α) × Option Bytes
  | 0, bytes => ([], some bytes)
  | count + 1, bytes =>
    match readFrame layout limit bytes with
    | (.ok value, some []) => ([.ok value], some [])
    | (.ok value, some rest) =>
      let (more, left) := readFrames layout limit count rest
      (.ok value :: more, left)
    | (result, left) => ([result], left)

/-- Writes values into one stream; a refused value adds nothing. Each result is the length of the
stream so far, or what is wrong. -/
def writeFrames (layout : Layout α) (limit : Nat) (values : List α) :
    List (Except WireFault Nat) × Bytes :=
  let step := fun (state : List (Except WireFault Nat) × Bytes) (value : α) =>
    match encodeFrame layout value limit with
    | .ok frame =>
      let stream := state.2 ++ frame
      (state.1 ++ [.ok stream.length], stream)
    | .error fault => (state.1 ++ [.error fault], state.2)
  values.foldl step ([], [])

end Overlay.Wire
