import Overlay.Engine
import Overlay.Metrics
import Overlay.Neighborhood
import Overlay.Program.Attempt
import Overlay.Tracker

/-!
The state of one node, and the small programs that read and change parts of it.
-/

set_option autoImplicit false

namespace Overlay

/-- Where a node gets peers from while its caches have room. -/
inductive Bootstrap
  | none
  /-- Known records, handed out in rotation; `next` counts those handed out. -/
  | records (all : List PeerRecord) (next : Nat)
  /-- Addresses at which a random one is asked for its record. -/
  | addresses (all : List SocketAddress)
deriving DecidableEq, Inhabited, Repr

/-- A tracked neighbor: the peer it was added for, and the place of its tracker. -/
structure Member where
  id : PeerId
  tracker : Nat
deriving DecidableEq, Inhabited, Repr

/-- One node. -/
structure Node where
  settings : Settings
  /-- What the node advertises about itself. -/
  record : PeerRecord
  clock : Timestamp
  dice : Dice
  engines : List Engine
  position : Vivaldi.State Binary64
  /-- Every tracker ever made, oldest first. -/
  trackers : List Tracker
  /-- The neighbors tracked now. -/
  members : List Member
  bootstrap : Bootstrap
  /-- A view of the network that takes the place of what the engines know. -/
  membership : Option (List PeerRecord)
  metrics : Metrics

namespace Node

/-- A new node that has heard of nobody. -/
def start (settings : Settings) (record : PeerRecord) (clock : Timestamp) (dice : Dice)
    (bootstrap : Bootstrap) (membership : Option (List PeerRecord)) : Node :=
  { settings, record, clock, dice, bootstrap, membership
    engines := settings.algorithms.eraseDups.map fun algorithm =>
      Engine.start algorithm settings record.id clock
    position := .initial
    trackers := []
    members := []
    metrics := .empty }

/-- The engine of an algorithm; one that the node does not run is as good as new. -/
def engine (node : Node) (algorithm : Algorithm) : Engine :=
  (node.engines.find? (·.algorithm = algorithm)).getD
    (Engine.start algorithm node.settings node.record.id node.clock)

/-- Replaces the engine of the same algorithm. -/
def withEngine (node : Node) (engine : Engine) : Node :=
  { node with
    engines := node.engines.map fun held =>
      if held.algorithm = engine.algorithm then engine else held }

/-- The tracker at a place. -/
def tracker (node : Node) (serial : Nat) : Tracker :=
  node.trackers[serial]?.getD (Tracker.start node.record node.settings)

/-- Changes the tracker at a place. -/
def withTracker (node : Node) (serial : Nat) (change : Tracker → Tracker) : Node :=
  { node with trackers := node.trackers.modify serial change }

/-- The distance of a tracker. -/
def distanceOf (node : Node) (serial : Nat) : Distance :=
  (node.tracker serial).distance node.settings

/-- The trackers of the neighbors tracked now. -/
def neighborTrackers (node : Node) : List Tracker :=
  node.members.map fun member => node.tracker member.tracker

/-- Whether a peer is tracked now. -/
def tracks (node : Node) (id : PeerId) : Bool := node.members.any (·.id = id)

/-- Publishes a coordinate in the node's record. -/
def publish (node : Node) (coordinate : Coordinate) : Node :=
  { node with record := node.record.publish coordinate }

/-- Runs random choices on the source of the node. -/
def draw {α : Type} (chance : Chance α) : Program Node α :=
  modifyGet fun node =>
    let (value, dice) := chance node.dice
    (value, { node with dice })

/-- Changes one engine, with random choices. -/
def onEngine {α : Type} (algorithm : Algorithm) (change : Engine → Chance (α × Engine)) :
    Program Node α := do
  let node ← get
  let (value, engine) ← draw (change (node.engine algorithm))
  modify (·.withEngine engine)
  pure value

/-- Changes one engine. -/
def updateEngine (algorithm : Algorithm) (change : Engine → Engine) : Program Node Unit :=
  onEngine algorithm fun engine => pure ((), change engine)

/-- A span lengthened by a random fraction of itself. -/
def jittered (span : Duration) : Program Node Duration := draw (Dice.jittered span)

end Node

end Overlay
