import Overlay.Scalar

/-!
Points of the three-dimensional space in which distance predicts round-trip time.
-/

set_option autoImplicit false

namespace Overlay

/-- A point, or a displacement, with three components. -/
structure Point (α : Type) where
  x : α
  y : α
  z : α
deriving DecidableEq, Inhabited, Repr

/-- A node's place in the latency space, in milliseconds. -/
abbrev Coordinate := Point Binary64

namespace Point

variable {α : Type} [Scalar α]

instance : Add (Point α) :=
  ⟨fun left right => ⟨left.x + right.x, left.y + right.y, left.z + right.z⟩⟩

instance : Sub (Point α) :=
  ⟨fun left right => ⟨left.x - right.x, left.y - right.y, left.z - right.z⟩⟩

/-- Every component multiplied by one factor. -/
def scale (point : Point α) (factor : α) : Point α :=
  ⟨point.x * factor, point.y * factor, point.z * factor⟩

/-- The place every node starts from. -/
def origin : Point α := ⟨Scalar.ofNat 0, Scalar.ofNat 0, Scalar.ofNat 0⟩

/-- The first axis. -/
def axis : Point α := ⟨Scalar.ofNat 1, Scalar.ofNat 0, Scalar.ofNat 0⟩

/-- Euclidean length. -/
def norm (point : Point α) : α :=
  Scalar.sqrt (point.x * point.x + point.y * point.y + point.z * point.z)

/-- Euclidean distance, which predicts the round-trip time between two nodes. -/
def distance (left right : Point α) : α := (left - right).norm

/-- Whether every component is finite. -/
def isFinite (point : Point α) : Bool :=
  Scalar.isFinite point.x && Scalar.isFinite point.y && Scalar.isFinite point.z

/-- The direction of a displacement; one without a usable length points along the first axis. -/
def unit (point : Point α) : Point α :=
  let length := point.norm
  if Scalar.isFinite length && Scalar.lt Scalar.epsilon length then
    point.scale (Scalar.ofNat 1 / length)
  else axis

end Point

namespace Coordinate

/-- Numeric equality, component by component. -/
def same (left right : Coordinate) : Bool :=
  left.x.same right.x && left.y.same right.y && left.z.same right.z

end Coordinate

end Overlay
