import Overlay.Node.Job
import Overlay.Settings.Document

/-!
A node from its start to its end: what it is made of, the loops it runs, and how they are stopped.
-/

set_option autoImplicit false

namespace Overlay

/-- The node that a plan describes, reachable at an address. -/
def NodePlan.node (plan : NodePlan) (id : PeerId) (address : SocketAddress) (clock : Timestamp)
    (dice : Dice) : Node :=
  let record := { PeerRecord.fresh id address plan.cluster with version := plan.settings.version }
  let bootstrap := if plan.bootstrap.isEmpty then Bootstrap.none else .addresses plan.bootstrap
  Node.start plan.settings record clock dice bootstrap none

/-- The time between two reports. -/
def NodePlan.reportPause (plan : NodePlan) : Duration :=
  Duration.ofMillis plan.reportInterval.toNat

namespace Node

/-- Every loop of a node. -/
def allJobs (node : Node) (plan : NodePlan) (bound : SocketAddress) (group : Nat) : List Job :=
  .acceptor bound group
    :: [Loop.gossip, .refinement, .maintenance].flatMap (node.loopJobs · group)
    ++ [.reporter plan.reportPause group]

/-- Starts every loop of a node that listens at an address. -/
def begin_ (plan : NodePlan) (bound : SocketAddress) (group : Nat) :
    Program Node (List WorkerId) := do
  let node ← get
  let workers ← (node.allJobs plan bound group).mapM Program.launch
  Program.report (.nodeStarted node.record.id bound node.record.address plan.cluster
    plan.bootstrap.length)
  pure workers

/-- Stops every loop of a node, and gives up its neighbors. -/
def finish (group : Nat) (workers : List WorkerId) : Program Node Unit := do
  Program.report .stopping
  stopLoops group workers
  dropAllNeighbors
  Program.report .stopped

end Node

/-- What a host lets its programs do: it picks the ports they listen on, and lets nobody in or
out. -/
structure Host where
  /-- The port that the next program gets. -/
  freePort : UInt16
deriving DecidableEq, Inhabited, Repr

namespace Host

/-- The address at which a program listens, if the host admits the one it asked for. -/
def listen (host : Host) (wanted : SocketAddress) : Option SocketAddress :=
  if wanted.port ≠ 0 then none
  else some (match wanted with
    | .v4 ip _ => .v4 ip host.freePort
    | .v6 ip _ flow scope => .v6 ip host.freePort flow scope)

/-- What a program is told whose address is not admitted. -/
def refusal : String := "Permission denied (os error 13)"

end Host

end Overlay
