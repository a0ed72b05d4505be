import Overlay.Distance
import Overlay.Peer

/-!
The choices of a maintenance pass: which neighbors go, and which peers come in for them.

A pass ranks the neighbors by distance, drops those out of reach from the far end, then drops the
farthest measured ones until no more than the limit are left. Neighbors on probation, whose distance
is unknown, stay. New candidates are the peers with the nearest published coordinates.
-/

set_option autoImplicit false

namespace Overlay.Neighborhood

/-- A neighbor with its distance. -/
abbrev Ranked := PeerId × Distance

/-- The neighbors from near to far; equally near ones keep their order. -/
def rank (neighbors : List Ranked) : List Ranked :=
  neighbors.mergeSort fun left right => decide (left.2 ≤ right.2)

/-- What a pass decides about the neighbors there are. -/
structure Review where
  /-- Neighbors out of reach, the last one in rank first. -/
  removed : List PeerId
  /-- Measured neighbors beyond the limit, the farthest first. -/
  evicted : List PeerId
  /-- The number of neighbors on probation. -/
  candidates : Nat
deriving DecidableEq, Inhabited, Repr

/-- Reviews the neighbors, of which `limit` measured ones may stay. -/
def review (limit : Nat) (neighbors : List Ranked) : Review :=
  let descending := (rank neighbors).reverse
  let within := descending.dropWhile (·.2.isUnreachable)
  let candidates := within.countP (·.2.isUnknown)
  { removed := (descending.takeWhile (·.2.isUnreachable)).map (·.1)
    evicted := (within.take (within.length - candidates - limit)).map (·.1)
    candidates }

/-- The distance that coordinates predict; infinite for a peer without a usable coordinate. -/
def estimated (origin : Coordinate) (record : PeerRecord) : Binary64 :=
  match record.coordinate.map origin.distance with
  | some predicted => if predicted.isFinite then predicted else .infinity
  | none => .infinity

/-- The nearest peers of a pool, as many as wanted; equally near ones keep their order. -/
def nearest (origin : Coordinate) (wanted : Nat) (pool : List PeerRecord) : List PeerRecord :=
  (pool.mergeSort fun left right =>
    decide ((estimated origin left).orderKey ≤ (estimated origin right).orderKey)).take wanted

/-- What a maintenance pass did. -/
structure Report where
  removed : List PeerId
  evicted : List PeerId
  /-- Peers that were put on probation. -/
  added : List PeerId
  /-- The number of neighbors on probation before any were added. -/
  candidates : Nat
deriving DecidableEq, Inhabited, Repr

end Overlay.Neighborhood
