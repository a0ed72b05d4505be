import Overlay.Coordinate
import Overlay.Wire.Layout

/-!
The block of thirty-two bytes with which a node tells its coordinate and its error estimate: four
doubles, highest byte first.
-/

set_option autoImplicit false

namespace Overlay.Wire

/-- A coordinate with the error estimate of the node that is there. -/
structure CoordinateBlock where
  coordinate : Coordinate
  error : Binary64
deriving DecidableEq, Inhabited, Repr

namespace CoordinateBlock

/-- Number of bytes of a block. -/
def size : Nat := 32

def encode (block : CoordinateBlock) : Bytes :=
  [block.coordinate.x, block.coordinate.y, block.coordinate.z, block.error].flatMap
    fun number => highestFirst 8 number.bits.toNat

/-- The double in the eight bytes from a given place on. -/
def doubleAt (bytes : Bytes) (place : Nat) : Binary64 :=
  ⟨UInt64.ofNat (ofHighestFirst ((bytes.drop place).take 8))⟩

/-- The block that thirty-two bytes make. -/
def decode (bytes : Bytes) : CoordinateBlock :=
  ⟨⟨doubleAt bytes 0, doubleAt bytes 8, doubleAt bytes 16⟩, doubleAt bytes 24⟩

/-- The first block of a byte string and the bytes after it, if the string is long enough. -/
def read? (bytes : Bytes) : Option (CoordinateBlock × Bytes) :=
  (takeBytes? size bytes).map fun (taken, rest) => (decode taken, rest)

end CoordinateBlock

end Overlay.Wire
