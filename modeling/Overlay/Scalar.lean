import Overlay.Binary64

/-!
The arithmetic that coordinates need, apart from how numbers are represented. Doubles are the
instance that runs.
-/

set_option autoImplicit false

namespace Overlay

/-- Numbers with field operations, a square root and a strict order that can be tested. -/
class Scalar (α : Type) extends Add α, Sub α, Mul α, Div α where
  ofNat : Nat → α
  sqrt : α → α
  abs : α → α
  lt : α → α → Bool
  isFinite : α → Bool

instance : Scalar Binary64 where
  ofNat := Binary64.ofNat
  sqrt := Binary64.sqrt
  abs := Binary64.abs
  lt := Binary64.lt
  isFinite := Binary64.isFinite

namespace Scalar

variable {α : Type} [Scalar α]

/-- The number itself, or `low` where it lies below. -/
def atLeast (low number : α) : α := if lt number low then low else number

/-- The number itself, or `high` where it lies above. -/
def atMost (high number : α) : α := if lt high number then high else number

/-- The number itself, or the bound it crossed. -/
def clamp (low high number : α) : α :=
  if lt number low then low else if lt high number then high else number

/-- The distance from one to the next double; lengths not above it count as no length. -/
def epsilon : α := ofNat 1 / ofNat (Nat.pow 2 52)

end Scalar

end Overlay
