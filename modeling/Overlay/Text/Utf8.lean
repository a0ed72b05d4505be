/-!
Where bytes stop being text in the eight-bit encoding.

A character takes one to four bytes. The first byte tells how many, and which second bytes keep the
character in range and in its shortest form; all other bytes have a fixed range.
-/

set_option autoImplicit false

namespace Overlay.Text

/-- The first place at which bytes are no text. -/
structure Utf8Fault where
  /-- The number of bytes before it that are text. -/
  place : Nat
  /-- The number of bytes that can belong to no character; none if the bytes just end too early. -/
  length : Option Nat
deriving DecidableEq, Inhabited, Repr

def Utf8Fault.message (fault : Utf8Fault) : String :=
  match fault.length with
  | some length =>
    "invalid utf-8 sequence of " ++ toString length ++ " bytes from index " ++ toString fault.place
  | none => "incomplete utf-8 byte sequence from index " ++ toString fault.place

/-- A range of bytes. -/
abbrev ByteRange := UInt8 × UInt8

/-- The range of bytes behind the second one. -/
def laterBytes : ByteRange := (0x80, 0xbf)

/-- The ranges of the bytes that must follow a first byte; none if no character starts with it. -/
def following? (first : UInt8) : Option (List ByteRange) :=
  if first < 0x80 then some []
  else if first < 0xc2 then none
  else if first < 0xe0 then some [laterBytes]
  else if first = 0xe0 then some [(0xa0, 0xbf), laterBytes]
  else if first = 0xed then some [(0x80, 0x9f), laterBytes]
  else if first < 0xf0 then some [laterBytes, laterBytes]
  else if first = 0xf0 then some [(0x90, 0xbf), laterBytes, laterBytes]
  else if first < 0xf4 then some [laterBytes, laterBytes, laterBytes]
  else if first = 0xf4 then some [(0x80, 0x8f), laterBytes, laterBytes]
  else none

/-- Compares bytes with the ranges they must be in: how many fit, and whether the next one does not
fit or is missing. -/
def misfit? : List ByteRange → List UInt8 → Option (Nat × Bool)
  | [], _ => none
  | _ :: _, [] => some (0, false)
  | range :: ranges, byte :: bytes =>
    if range.1 ≤ byte ∧ byte ≤ range.2 then
      (misfit? ranges bytes).map fun (fitting, isWrong) => (fitting + 1, isWrong)
    else some (0, true)

/-- The fault of the character that starts with the first of some bytes, with the number of bytes
it takes if it has none. -/
def characterFault (place : Nat) (first : UInt8) (rest : List UInt8) : Except Utf8Fault Nat :=
  match following? first with
  | none => .error ⟨place, some 1⟩
  | some ranges =>
    match misfit? ranges rest with
    | none => .ok ranges.length
    | some (fitting, isWrong) =>
      .error ⟨place, if isWrong then some (fitting + 1) else none⟩

/-- The first fault of bytes, if they have one; `skipped` of them belong to the character before. -/
def faultFrom (place skipped : Nat) : List UInt8 → Option Utf8Fault
  | [] => none
  | byte :: rest =>
    match skipped with
    | skipped + 1 => faultFrom (place + 1) skipped rest
    | 0 =>
      match characterFault place byte rest with
      | .error fault => some fault
      | .ok length => faultFrom (place + 1) length rest

/-- The first fault of bytes, if they have one. -/
def utf8Fault? (bytes : List UInt8) : Option Utf8Fault := faultFrom 0 0 bytes

end Overlay.Text
