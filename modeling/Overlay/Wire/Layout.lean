import Overlay.Text.Utf8

/-!
Byte layouts: a writer and a reader for each type, built from a few basic layouts.

Numbers have a fixed width and their lowest byte first; texts and lists are preceded by their length
in eight bytes, alternatives by their number. A reader takes bytes from the front and hands on the
rest, so bytes after a value never matter.
-/

set_option autoImplicit false

namespace Overlay.Wire

abbrev Bytes := List UInt8

/-- Why bytes are no value of a layout. -/
inductive LayoutFault
  /-- The bytes end within a number. -/
  | exhausted
  /-- The bytes end within others that are taken as they are. -/
  | blockCut
  | notABool (byte : UInt8)
  | notAnOption (byte : UInt8)
  | notText (fault : Text.Utf8Fault)
  | notAnAlternative (number : Nat) (expected : String)
  | notSixteenBytes (length : Nat)
deriving DecidableEq, Inhabited, Repr

namespace LayoutFault

def message : LayoutFault → String
  | .exhausted => "io error: unexpected end of file"
  | .blockCut => "io error: "
  | .notABool byte =>
    "invalid u8 while decoding bool, expected 0 or 1, found " ++ toString byte.toNat
  | .notAnOption byte => "tag for enum is not valid, found " ++ toString byte.toNat
  | .notText fault => "string is not valid utf8: " ++ fault.message
  | .notAnAlternative number expected =>
    "invalid value: integer \x60" ++ toString number ++ "\x60, expected " ++ expected
  | .notSixteenBytes length =>
    "UUID parsing failed: invalid length: expected 16 bytes, found " ++ toString length

end LayoutFault

/-- The lowest `width` bytes of a number, lowest first. -/
def lowestFirst : Nat → Nat → Bytes
  | 0, _ => []
  | width + 1, number => UInt8.ofNat number :: lowestFirst width (number / 256)

/-- The number that bytes make, lowest first. -/
def ofLowestFirst : Bytes → Nat
  | [] => 0
  | byte :: rest => byte.toNat + 256 * ofLowestFirst rest

/-- The lowest `width` bytes of a number, highest first. -/
def highestFirst (width number : Nat) : Bytes := (lowestFirst width number).reverse

/-- The number that bytes make, highest first. -/
def ofHighestFirst (bytes : Bytes) : Nat := ofLowestFirst bytes.reverse

/-- Takes exactly `count` bytes from the front, if there are so many. -/
def takeBytes? (count : Nat) (bytes : Bytes) : Option (Bytes × Bytes) :=
  let taken := bytes.take count
  if taken.length < count then none else some (taken, bytes.drop count)

/-- The bytes of a number. -/
def takeDigits (width : Nat) (bytes : Bytes) : Except LayoutFault (Bytes × Bytes) :=
  (takeBytes? width bytes).elim (.error .exhausted) .ok

/-- Bytes that are taken as they are. -/
def takeBlock (length : Nat) (bytes : Bytes) : Except LayoutFault (Bytes × Bytes) :=
  (takeBytes? length bytes).elim (.error .blockCut) .ok

/-- A writer and a reader of one type. -/
structure Layout (α : Type) where
  write : α → Bytes
  read : Bytes → Except LayoutFault (α × Bytes)

namespace Layout

variable {α β : Type}

/-- The same bytes for a type that is in one-to-one correspondence. -/
def map (layout : Layout α) (into : α → β) (back : β → α) : Layout β where
  write value := layout.write (back value)
  read bytes := do
    let (value, rest) ← layout.read bytes
    pure (into value, rest)

/-- One value after the other. -/
def pair (first : Layout α) (second : Layout β) : Layout (α × β) where
  write value := first.write value.1 ++ second.write value.2
  read bytes := do
    let (left, rest) ← first.read bytes
    let (right, rest) ← second.read rest
    pure ((left, right), rest)

/-- A whole number in `width` bytes. -/
def number (width : Nat) : Layout Nat where
  write value := lowestFirst width value
  read bytes := do
    let (taken, rest) ← takeDigits width bytes
    pure (ofLowestFirst taken, rest)

def byte : Layout UInt8 := (number 1).map UInt8.ofNat UInt8.toNat
def word16 : Layout UInt16 := (number 2).map UInt16.ofNat UInt16.toNat
def word32 : Layout UInt32 := (number 4).map UInt32.ofNat UInt32.toNat
def word64 : Layout UInt64 := (number 8).map UInt64.ofNat UInt64.toNat

/-- `width` bytes that make a number, highest first. -/
def bits (width : Nat) : Layout (BitVec (8 * width)) where
  write value := highestFirst width value.toNat
  read bytes := do
    let (taken, rest) ← takeDigits width bytes
    pure (BitVec.ofNat _ (ofHighestFirst taken), rest)

/-- One byte, zero or one. -/
def bool : Layout Bool where
  write value := [if value then 1 else 0]
  read bytes := do
    let (tag, rest) ← byte.read bytes
    if tag = 0 then pure (false, rest)
    else if tag = 1 then pure (true, rest)
    else throw (.notABool tag)

/-- One byte tells whether a value follows. -/
def option (layout : Layout α) : Layout (Option α) where
  write
    | none => [0]
    | some value => 1 :: layout.write value
  read bytes := do
    let (tag, rest) ← byte.read bytes
    if tag = 0 then pure (none, rest)
    else if tag = 1 then
      let (value, rest) ← layout.read rest
      pure (some value, rest)
    else throw (.notAnOption tag)

/-- Text in its eight-bit encoding after its length in bytes. -/
def text : Layout String where
  write value := word64.write (UInt64.ofNat value.utf8ByteSize) ++ value.toUTF8.toList
  read bytes := do
    let (length, rest) ← word64.read bytes
    let (taken, rest) ← takeBlock length.toNat rest
    match Text.utf8Fault? taken, String.fromUTF8? ⟨taken.toArray⟩ with
    | none, some value => pure (value, rest)
    | fault, _ => throw (.notText (fault.getD ⟨0, none⟩))

/-- Reads a given number of values. -/
def readMany (layout : Layout α) : Nat → Bytes → Except LayoutFault (List α × Bytes)
  | 0, bytes => pure ([], bytes)
  | count + 1, bytes => do
    let (value, rest) ← layout.read bytes
    let (more, rest) ← readMany layout count rest
    pure (value :: more, rest)

/-- Values after their number. -/
def list (layout : Layout α) : Layout (List α) where
  write values := word64.write (UInt64.ofNat values.length) ++ values.flatMap layout.write
  read bytes := do
    let (count, rest) ← word64.read bytes
    layout.readMany count.toNat rest

/-- One of several constants, by its number in a list of all of them. -/
def oneOf [BEq α] (all : List α) : Layout α where
  write value := word32.write (UInt32.ofNat (all.idxOf value))
  read bytes := do
    let (number, rest) ← word32.read bytes
    match all[number.toNat]? with
    | some value => pure (value, rest)
    | none =>
      throw (.notAnAlternative number.toNat ("variant index 0 <= i < " ++ toString all.length))

end Layout

end Overlay.Wire
