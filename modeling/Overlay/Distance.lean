import Overlay.Binary64
import Overlay.Decimal.Places

/-!
How far a peer is, with two ends: nothing known yet, and out of reach.

Distances are totally ordered: unknown ones first, then milliseconds in the total order of doubles,
then unreachable ones.
-/

set_option autoImplicit false

namespace Overlay

/-- How far a peer is. -/
inductive Distance
  | unknown
  | millis (value : Binary64)
  | unreachable
deriving DecidableEq, Inhabited, Repr

namespace Distance

/-- Reads a plain number: not a number and minus infinity are unknown, infinity is unreachable. -/
def ofBinary64 (value : Binary64) : Distance :=
  if value.isNaN then .unknown
  else if value.isFinite then .millis value
  else if value.isNegative then .unknown else .unreachable

/-- The distance as a plain number, with infinities at the two ends. -/
def toBinary64 : Distance → Binary64
  | .unknown => .negativeInfinity
  | .millis value => value
  | .unreachable => .infinity

def isMeasured : Distance → Bool
  | .millis _ => true
  | _ => false

def isUnknown : Distance → Bool
  | .unknown => true
  | _ => false

def isUnreachable : Distance → Bool
  | .unreachable => true
  | _ => false

/-- Position in the total order. -/
def orderKey : Distance → Nat
  | .unknown => 0
  | .millis value => value.orderKey + 1
  | .unreachable => UInt64.size + 1

instance : LE Distance := ⟨fun left right => left.orderKey ≤ right.orderKey⟩
instance : LT Distance := ⟨fun left right => left.orderKey < right.orderKey⟩
instance (left right : Distance) : Decidable (left ≤ right) :=
  inferInstanceAs (Decidable (left.orderKey ≤ right.orderKey))
instance (left right : Distance) : Decidable (left < right) :=
  inferInstanceAs (Decidable (left.orderKey < right.orderKey))
instance : Ord Distance := ⟨fun left right => compare left.orderKey right.orderKey⟩

/-- Milliseconds are written with two places. -/
def text : Distance → String
  | .unknown => "unknown"
  | .millis value => value.withPlaces 2 ++ "ms"
  | .unreachable => "unreachable"

/-- The smallest of several distances. -/
def least? : List Distance → Option Distance
  | [] => none
  | first :: rest =>
    some (rest.foldl (fun best next => if next < best then next else best) first)

/-- The largest of several distances. -/
def greatest? : List Distance → Option Distance
  | [] => none
  | first :: rest =>
    some (rest.foldl (fun best next => if next < best then best else next) first)

end Distance

end Overlay
