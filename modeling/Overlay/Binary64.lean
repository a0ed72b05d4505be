/-!
Double-precision numbers kept by their bits, so that a number which only travels through the node
is never changed, and two numbers can be told apart exactly.

A finite number is a sign, a whole mantissa and a power of two; `orderKey` is the total order of all
bit patterns.
-/

set_option autoImplicit false

namespace Overlay

/-- A double-precision number, held by its sixty-four bits. -/
structure Binary64 where
  bits : UInt64
deriving DecidableEq, Repr

namespace Binary64

/-- The number for arithmetic. -/
def toFloat (number : Binary64) : Float := Float.ofBits number.bits

/-- The bits of an arithmetic result. -/
def ofFloat (number : Float) : Binary64 := ⟨number.toBits⟩

/-- The double nearest to a whole number. -/
def ofNat (number : Nat) : Binary64 := ofFloat (Float.ofNat number)

def zero : Binary64 := ⟨0⟩
def one : Binary64 := ⟨0x3ff0000000000000⟩
def negativeZero : Binary64 := ⟨0x8000000000000000⟩
def infinity : Binary64 := ⟨0x7ff0000000000000⟩
def negativeInfinity : Binary64 := ⟨0xfff0000000000000⟩
def notANumber : Binary64 := ⟨0x7ff8000000000000⟩

instance : Inhabited Binary64 := ⟨zero⟩

/-- The sign bit is set; this holds of negative zero too. -/
def isNegative (number : Binary64) : Bool := 0x8000000000000000 ≤ number.bits

/-- The eleven exponent bits. -/
def exponentField (number : Binary64) : Nat := number.bits.toNat / Nat.pow 2 52 % Nat.pow 2 11

/-- The fifty-two bits below the exponent. -/
def fractionField (number : Binary64) : Nat := number.bits.toNat % Nat.pow 2 52

def isNaN (number : Binary64) : Bool :=
  number.exponentField == 2047 && number.fractionField != 0

def isFinite (number : Binary64) : Bool := number.exponentField != 2047

/-- The whole mantissa of a finite number; normal numbers carry a leading one. -/
def mantissa (number : Binary64) : Nat :=
  if number.exponentField = 0 then number.fractionField
  else Nat.pow 2 52 + number.fractionField

/-- The power of two that the mantissa of a finite number is multiplied by. -/
def exponent (number : Binary64) : Int :=
  (max number.exponentField 1 : Nat) - 1075

/-- Position of a bit pattern in the total order: negative numbers descending by magnitude come
first, with negative zero just below zero. -/
def orderKey (number : Binary64) : Nat :=
  if number.isNegative then UInt64.size - 1 - number.bits.toNat
  else Nat.pow 2 63 + number.bits.toNat

instance : Add Binary64 := ⟨fun left right => ofFloat (left.toFloat + right.toFloat)⟩
instance : Sub Binary64 := ⟨fun left right => ofFloat (left.toFloat - right.toFloat)⟩
instance : Mul Binary64 := ⟨fun left right => ofFloat (left.toFloat * right.toFloat)⟩
instance : Div Binary64 := ⟨fun left right => ofFloat (left.toFloat / right.toFloat)⟩

/-- Strict numeric order; false as soon as either side is not a number. -/
def lt (left right : Binary64) : Bool := left.toFloat < right.toFloat

/-- Numeric equality: the two zeros are equal, and nothing equals a value that is not a number. -/
def same (left right : Binary64) : Bool := left.toFloat == right.toFloat

def abs (number : Binary64) : Binary64 := ofFloat number.toFloat.abs

def sqrt (number : Binary64) : Binary64 := ofFloat number.toFloat.sqrt

/-- The smaller number; a value that is not a number gives way to the other. -/
def min (left right : Binary64) : Binary64 :=
  if left.isNaN then right else if right.lt left then right else left

end Binary64

end Overlay
