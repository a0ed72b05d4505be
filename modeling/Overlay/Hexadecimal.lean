/-!
Lower-case hexadecimal text of a fixed width.
-/

set_option autoImplicit false

namespace Overlay.Hexadecimal

/-- One digit; sixteen and above do not occur. -/
def digit (value : Nat) : Char := Nat.digitChar value

/-- The lowest `width` hexadecimal digits of a number, most significant first. -/
def digits : Nat → Nat → List Char
  | 0, _ => []
  | width + 1, number => digits width (number / 16) ++ [digit (number % 16)]

/-- All hexadecimal digits of a number, without leading zeros. -/
def text (number : Nat) : String := String.ofList (Nat.toDigits 16 number)

/-- A byte as `0x` and two digits. -/
def ofByte (byte : UInt8) : String := String.ofList ('0' :: 'x' :: digits 2 byte.toNat)

end Overlay.Hexadecimal
