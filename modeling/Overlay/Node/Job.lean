import Overlay.Node.Inbound
import Overlay.Node.Neighbors

/-!
The jobs of a node. A job runs in turns: each turn is one program, which answers with the job that
goes on after it, if any does.
-/

set_option autoImplicit false

namespace Overlay.Node

/-- Waits for the next turn of a loop. The answer tells whether the loop was stopped instead. -/
def isStopped (delay : Duration) (group : Nat) : Program Node Bool := do
  match ← Program.pause delay [.shutdown group] with
  | .elapsed => pure false
  | .heard _ => pure true

/-- One turn of the rounds of an algorithm. -/
def gossipTurn (algorithm : Algorithm) (group : Nat) : Program Node (Option Job) := do
  let delay ← jittered (← get).settings.gossipPause
  if ← isStopped delay group then
    Program.report (.gossipStopped algorithm)
    pure none
  else
    reportedRound algorithm
    pure (some (.gossipRound algorithm group))

/-- Pings a peer and moves the own coordinate by what was measured. The node itself is not
pinged. -/
def refineWith (peer : PeerRecord) : Program Node Unit := do
  if peer.id = (← get).record.id then pure ()
  else
    match ← (ping peer.address true).run with
    | .ok sample => do
      Program.report (.coordinateUpdated peer.id sample.roundTrip (← get).position.error)
    | .error failure => Program.report (.refinementFailed peer.id failure)

/-- One turn of refinement: a random neighbor, and then a random known peer. -/
def refinementTurn (group : Nat) : Program Node (Option Job) := do
  let delay ← jittered (← get).settings.vivaldiPause
  if ← isStopped delay group then
    Program.report .refinementStopped
    pure none
  else
    let neighbor ← draw (← get).randomNeighbor
    let other ← draw (← get).randomKnownNode
    ([neighbor, other].filterMap id).forM refineWith
    pure (some (.refinement group))

/-- One turn of maintenance. A stopped maintenance gives up all neighbors. -/
def maintenanceTurn (group : Nat) : Program Node (Option Job) := do
  let delay ← jittered (← get).settings.clusterPause
  if ← isStopped delay group then
    dropAllNeighbors
    Program.report .maintenanceStopped
    pure none
  else
    let _ ← maintain
    pure (some (.maintenance group))

/-- What is measured about a node now. -/
def snapshot (node : Node) : Snapshot :=
  { stats := node.stats
    neighbors := .ofNat node.members.length
    nearest := node.nearestDistance
    norm := node.position.coordinate.norm
    error := node.position.error }

/-- The status of a node as it is reported. -/
def status (node : Node) : Event :=
  .status node.record.id node.cachedNodes.length node.members.length node.nearestDistance
    node.position.error

/-- One turn of the reporter. -/
def reporterTurn (interval : Duration) (group : Nat) : Program Node (Option Job) := do
  if ← isStopped interval group then
    Program.report .reporterStopped
    pure none
  else
    modify fun node => { node with metrics := node.metrics.record node.snapshot }
    Program.report (← get).status
    pure (some (.reporter interval group))

/-- The longest time for which connections are taken in without a look around. -/
def listeningPause : Duration := Duration.ofMillis 3600000

/-- One turn of taking in connections. Those that come in are answered by jobs of their own. -/
def listeningTurn (group : Nat) : Program Node (Option Job) := do
  if ← isStopped listeningPause group then
    Program.report .acceptorStopped
    pure none
  else pure (some (.listening group))

/-- Answers on a stream, which is closed in the end. -/
def serve (tag : Wire.ServiceTag) (stream : StreamId) : Program Node Unit := do
  let _ ← (Attempt.closing stream (dispatch tag stream none)).run
  pure ()

/-- How a scripted peer goes on after one byte. -/
def respond (manner : Manner) (stream : StreamId) (content : Wire.Bytes) :
    Program Node (Option Manner) := do
  match manner with
  | .echo amount delays => do
    delays.head?.forM fun delay => do
      let _ ← Program.pause delay []
      pure ()
    match ← Program.write stream (content.map (· + amount)) none with
    | .written => pure (some (.echo amount (delays.drop 1)))
    | _ => pure none
  | other => pure (some other)

/-- One turn of a scripted peer: a byte, and what it answers. One that hangs keeps its stream open
and does nothing. -/
def scriptedTurn (manner : Manner) (stream : StreamId) : Program Node (Option Job) := do
  match manner with
  | .hang => pure none
  | _ => do
    let next ← match ← Program.read stream 1 none with
      | .bytes content => respond manner stream content
      | _ => pure none
    match next with
    | some manner => pure (some (.scriptedReply manner stream))
    | none => do
      Program.close stream
      pure none

/-- One turn of a job. -/
def turn : Job → Program Node (Option Job)
  | .gossip algorithm group => do
    Program.report (.gossipStarted algorithm)
    gossipTurn algorithm group
  | .gossipRound algorithm group => gossipTurn algorithm group
  | .refinement group => refinementTurn group
  | .maintenance group => maintenanceTurn group
  | .reporter interval group => reporterTurn interval group
  | .acceptor address group => do
    Program.report (.accepting address)
    listeningTurn group
  | .listening group => listeningTurn group
  | .tracker serial => do
    let continues ← trackerTurn serial
    pure (if continues then some (.tracker serial) else none)
  | .serve tag stream => do
    serve tag stream
    pure none
  | .script opening manner stream => do
    let _ ← Program.write stream opening none
    match manner with
    | .close => Program.finish stream
    | _ => pure ()
    pure (some (.scriptedReply manner stream))
  | .scriptedReply manner stream => scriptedTurn manner stream

/-- The loops that are stopped together. -/
inductive Loop
  | gossip
  | refinement
  | maintenance
deriving DecidableEq, Inhabited, Repr

/-- A loop by name. -/
def Loop.ofName? : String → Option Loop
  | "gossip" => some .gossip
  | "vivaldi" => some .refinement
  | "cluster" => some .maintenance
  | _ => none

/-- The jobs of a loop: one for each engine, or one alone. -/
def loopJobs (node : Node) (loop : Loop) (group : Nat) : List Job :=
  match loop with
  | .gossip => node.engines.map fun engine => .gossip engine.algorithm group
  | .refinement => [.refinement group]
  | .maintenance => [.maintenance group]

/-- Starts a loop. -/
def startLoop (loop : Loop) (group : Nat) : Program Node (List WorkerId) := do
  ((← get).loopJobs loop group).mapM Program.launch

/-- Stops the loops of a group and waits for their end. -/
def stopLoops (group : Nat) (workers : List WorkerId) : Program Node Unit := do
  Program.raise (.shutdown group)
  Program.join workers

end Overlay.Node
