import Overlay.Node.Membership
import Overlay.Node.Ping
import Overlay.Node.Record

/-!
The neighbors of a node: trackers that ping them, and the passes that bound their number.
-/

set_option autoImplicit false

namespace Overlay.Node

open Attempt Neighborhood

/-- Asks a tracked peer for its record and measures the way to it. The peer at that address may be
another one by now; then the tracker goes on with that one. -/
def probe (serial : Nat) : Attempt Node Binary64 := do
  let node ← get
  let address := (node.tracker serial).record.address
  let settings := node.settings
  let record ← requestRecord address settings.patience settings.maxMessageBytes.toNat
  let expected := ((← get).tracker serial).record.id
  if record.id != expected then
    perform (Program.report (.neighborReplaced expected record.id address))
  modify (·.withTracker serial (·.refreshed record))
  let sample ← ping record.address false
  pure sample.roundTrip

/-- One ping of a tracked peer, which counts in its history. -/
def pingOnce (serial : Nat) : Attempt Node Binary64 := ExceptT.mk do
  let result ← (probe serial).run
  modify fun node => node.withTracker serial fun tracker =>
    match result with
    | .ok roundTrip => tracker.succeeded roundTrip
    | .error _ => tracker.failed
  pure result

/-- What is reported about a ping of a tracked peer. -/
def pingEvent (tracker : Tracker) (distance : Distance) : Except Failure Binary64 → Event
  | .ok roundTrip => .neighborPinged tracker.id roundTrip distance
  | .error failure => .neighborFailed tracker.id tracker.failures failure

/-- One turn of a tracker: a ping, and what follows from it. The answer tells whether another turn
follows. On probation turns follow each other at once; a peer out of reach is pinged once more, and
given up if that fails. -/
def trackerTurn (serial : Nat) : Program Node Bool := do
  let tracker := (← get).tracker serial
  if tracker.ended then stop tracker
  else do
    let outcome ← (pingOnce serial).run
    let node ← get
    let distance := node.distanceOf serial
    Program.report (pingEvent (node.tracker serial) distance outcome)
    if distance.isUnreachable then
      if (node.tracker serial).ended then stop tracker
      else do
        match ← (pingOnce serial).run with
        | .ok _ => pure true
        | .error _ => stop tracker
    else if outcome.isOk && distance.isUnknown then pure true
    else do
      let delay ← jittered node.settings.neighborPause
      let _ ← Program.pause delay [.pingNow serial, .trackerEnd serial]
      pure true
where
  /-- The end of a tracker. -/
  stop (tracker : Tracker) : Program Node Bool := do
    Program.report (.trackerStopped tracker.id)
    pure false

/-- Puts a peer on probation. The answer is the place of its tracker. -/
def addNeighbor (record : PeerRecord) : Program Node Nat := do
  let node ← get
  let serial := node.trackers.length
  let others := node.members.filter (·.id != record.id)
  set { node with
    trackers := node.trackers ++ [Tracker.start record node.settings]
    members := others ++ [Member.mk record.id serial] }
  let _ ← Program.launch (.tracker serial)
  pure serial

/-- Tracks a peer, unless it is tracked already. -/
def track (record : PeerRecord) : Program Node Nat := do
  match (← get).members.find? (·.id = record.id) with
  | some member => pure member.tracker
  | none => addNeighbor record

/-- Ends a tracker. -/
def endTracker (serial : Nat) : Program Node Unit := do
  modify (·.withTracker serial Tracker.retired)
  Program.raise (.trackerEnd serial)

/-- Gives up the neighbors of the given names. -/
def dropNeighbors (dropped : List PeerId) : Program Node Unit := do
  let node ← get
  let (gone, kept) := node.members.partition fun member => dropped.contains member.id
  set { node with members := kept }
  gone.forM fun member => endTracker member.tracker

/-- The peers that may become neighbors: known ones, neither the node itself nor tracked. -/
def eligible (node : Node) : List PeerRecord :=
  node.knownNodes.filter fun record => record.id != node.record.id && !node.tracks record.id

/-- One maintenance pass. Every neighbor is asked to ping, but the pass does not wait for that. -/
def maintain : Program Node Report := do
  let node ← get
  node.members.forM fun member => Program.raise (.pingNow member.tracker)
  let review := review node.settings.maxClusterSize.toNat
    (node.members.map fun member => (member.id, node.distanceOf member.tracker))
  dropNeighbors (review.removed ++ review.evicted)
  let node ← get
  let wanted := node.settings.candidateTarget.toNat - review.candidates
  let added := nearest node.position.coordinate wanted node.eligible
  added.forM fun record => do
    let _ ← addNeighbor record
    pure ()
  let report : Report := ⟨review.removed, review.evicted, added.map (·.id), review.candidates⟩
  Program.report (.maintained (← get).members.length report.candidates report.removed.length
    report.evicted.length report.added.length)
  pure report

/-- Gives up all neighbors. -/
def dropAllNeighbors : Program Node Unit := do
  let node ← get
  dropNeighbors (node.members.map (·.id))

/-- The neighbors from near to far. -/
def sortedNeighbors (node : Node) : List (PeerRecord × Distance) :=
  let ranked := node.neighborTrackers.map fun tracker =>
    (tracker.record, tracker.distance node.settings)
  ranked.mergeSort fun left right => decide (left.2 ≤ right.2)

def neighbors (node : Node) : List PeerRecord := node.neighborTrackers.map (·.record)

/-- A random neighbor. -/
def randomNeighbor (node : Node) : Chance (Option PeerRecord) :=
  if node.neighbors.isEmpty then pure none
  else do
    let place ← Dice.index node.neighbors.length
    pure node.neighbors[place]?

/-- The least distance that was measured; unreachable if none was. -/
def nearestDistance (node : Node) : Distance :=
  let measured := (node.neighborTrackers.map (·.distance node.settings)).filter (·.isMeasured)
  (Distance.least? measured).getD .unreachable

end Overlay.Node
