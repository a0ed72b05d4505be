import Overlay.Hexadecimal

/-!
Socket addresses and their text.

An address of the first family is written as four numbers, one of the second as hexadecimal groups
with the longest run of zero groups left out.
-/

set_option autoImplicit false

namespace Overlay

/-- An internet address with a port; the wider family also names a flow and a scope. -/
inductive SocketAddress
  | v4 (ip : BitVec 32) (port : UInt16)
  | v6 (ip : BitVec 128) (port : UInt16) (flow scope : UInt32)
deriving DecidableEq, Inhabited, Repr

namespace SocketAddress

def port : SocketAddress → UInt16
  | .v4 _ port => port
  | .v6 _ port _ _ => port

/-- The address without its flow and its scope, which no message carries. -/
def unscoped : SocketAddress → SocketAddress
  | .v4 ip port => .v4 ip port
  | .v6 ip port _ _ => .v6 ip port 0 0

/-- The first address of the family at four given numbers. -/
def ofOctets (first second third fourth : Nat) (port : UInt16) : SocketAddress :=
  .v4 (BitVec.ofNat 32 (((first * 256 + second) * 256 + third) * 256 + fourth)) port

/-- The private address that stands for a node number: its low twenty-four bits in network ten. -/
def ofNumber (number : Nat) : SocketAddress :=
  ofOctets 10 (number / 65536 % 256) (number / 256 % 256) (number % 256) 7946

/-- Four numbers with dots between them. -/
def dotted (ip : Nat) : String :=
  ".".intercalate
    [toString (ip / 16777216 % 256), toString (ip / 65536 % 256), toString (ip / 256 % 256),
      toString (ip % 256)]

/-- The eight sixteen-bit groups of a wide address. -/
def groups (ip : BitVec 128) : List Nat :=
  (List.range 8).map fun index => ip.toNat / Nat.pow 65536 (7 - index) % 65536

/-- Start and length of a run of zero groups. -/
structure ZeroRun where
  start : Nat
  length : Nat
deriving DecidableEq, Repr

/-- The first of the longest runs of zero groups. -/
def longestZeroRun (groups : List Nat) : ZeroRun :=
  let step := fun (state : ZeroRun × ZeroRun) (item : Nat × Nat) =>
    let (best, current) := state
    if item.1 = 0 then
      let grown : ZeroRun :=
        if current.length = 0 then ⟨item.2, 1⟩ else ⟨current.start, current.length + 1⟩
      (if best.length < grown.length then grown else best, grown)
    else (best, ⟨0, 0⟩)
  (groups.zipIdx.foldl step (⟨0, 0⟩, ⟨0, 0⟩)).1

/-- Groups with colons between them. -/
def coloned (groups : List Nat) : String := ":".intercalate (groups.map Hexadecimal.text)

/-- A wide address: an embedded narrow one keeps its dots, and the longest run of at least two zero
groups becomes a double colon. -/
def wideText (ip : BitVec 128) : String :=
  let all := groups ip
  if ip.toNat / UInt32.size = 65535 then "::ffff:" ++ dotted (ip.toNat % UInt32.size)
  else
    let run := longestZeroRun all
    if 1 < run.length then
      coloned (all.take run.start) ++ "::" ++ coloned (all.drop (run.start + run.length))
    else coloned all

/-- The address as text, which does not show the flow. -/
def text : SocketAddress → String
  | .v4 ip port => dotted ip.toNat ++ ":" ++ toString port.toNat
  | .v6 ip port _ scope =>
    let zone := if scope = 0 then "" else "%" ++ toString scope.toNat
    "[" ++ wideText ip ++ zone ++ "]:" ++ toString port.toNat

end SocketAddress

end Overlay
