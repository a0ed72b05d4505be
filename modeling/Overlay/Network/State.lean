import Overlay.Network.Pipe
import Overlay.Node.Job

/-!
A network of nodes in virtual time.

Workers run one at a time, in the order in which they were roused. One of them, the visitor, looks
at the network from outside; the others run jobs of nodes. Time stands still while any worker can
run.
-/

set_option autoImplicit false

namespace Overlay

/-- One end of a stream: where it reads from, where it writes to, and the milliseconds that pass
before each read delivers. -/
structure StreamEnd where
  incoming : Nat
  outgoing : Nat
  latency : Nat
deriving DecidableEq, Inhabited, Repr

/-- What an address does that belongs to no node. -/
inductive ScriptedPeer
  | refuses (reason : String)
  /-- Connecting takes until the network gives up. -/
  | silent
  | talks (opening : Wire.Bytes) (manner : Manner) (latency : Nat)
deriving Inhabited, Repr

/-- How far a worker has come with the request it waits for. -/
inductive Progress
  | fresh
  /-- Reading: some bytes are there, the next ones come after the given moment. -/
  | delayed (received : Wire.Bytes) (due : Instant)
  /-- Reading: some bytes are there, the next ones may come any time. -/
  | reading (received : Wire.Bytes)
  | writing (left : Wire.Bytes)
  /-- Waiting for a moment. -/
  | waiting (due : Instant)
deriving DecidableEq, Inhabited, Repr

/-- A program that waits, with how far its request has come. -/
structure Suspended (α : Type) where
  program : Program Node α
  progress : Progress

/-- A job at work for a node. -/
structure Worker where
  node : Nat
  /-- What is left of its present turn; nothing once the job is over. -/
  turn : Option (Suspended (Option Job))

/-- A worker to be roused at a moment. -/
structure Alarm where
  due : Instant
  worker : WorkerId
deriving DecidableEq, Inhabited, Repr

/-- A signal of a node. -/
structure Bell where
  node : Nat
  signal : Signal
deriving DecidableEq, Inhabited, Repr

/-- A worker that a bell rouses. -/
structure Listener where
  bell : Bell
  worker : WorkerId
  /-- Whether a momentary signal was given to this worker. -/
  rung : Bool
deriving DecidableEq, Inhabited, Repr

/-- An attempt of a node to connect. -/
structure Connection where
  node : Nat
  address : SocketAddress
  tag : Wire.ServiceTag
  patience : Duration
deriving DecidableEq, Inhabited, Repr

/-- A network of nodes. -/
structure Network where
  tick : Nat
  /-- The number of moments asked for so far. -/
  turns : Nat
  nodes : Array Node
  /-- Where each node can be reached; the last one to take an address has it. -/
  directory : List (SocketAddress × Nat)
  scripted : List (SocketAddress × ScriptedPeer)
  latencies : List (SocketAddress × Nat)
  /-- Addresses that refuse connections. -/
  down : List SocketAddress
  pipes : Array Pipe
  ends : Array StreamEnd
  workers : Array Worker
  /-- The workers that can run, in order. -/
  ready : List WorkerId
  /-- Whether the visitor can run. -/
  visitorReady : Bool
  alarms : List Alarm
  /-- Bells that were rung and not heard, or that ring for ever. -/
  ringing : List Bell
  listeners : List Listener
  /-- What was reported, newest first. -/
  events : List Event
  /-- The attempts to connect, newest first. -/
  connections : List Connection

namespace Network

/-- A network in which nothing has happened. -/
def empty : Network :=
  { tick := 0, turns := 0, nodes := #[], directory := [], scripted := [], latencies := []
    down := [], pipes := #[], ends := #[], workers := #[], ready := [], visitorReady := false
    alarms := [], ringing := [], listeners := [], events := [], connections := [] }

/-- A node that nobody asked for, at the place of a missing one. -/
def nowhere : Node :=
  Node.start .standard (.fresh (.ofNat 0) (.ofNumber 0) "") ⟨0⟩ .last .none none

def node (network : Network) (index : Nat) : Node := network.nodes.getD index nowhere

def setNode (network : Network) (index : Nat) (node : Node) : Network :=
  { network with nodes := network.nodes.setIfInBounds index node }

/-- Adds a node, at its address. -/
def join (network : Network) (node : Node) : Network :=
  { network with
    nodes := network.nodes.push node
    directory := (node.record.address, network.nodes.size) :: network.directory }

/-- Adds a node that cannot be reached from elsewhere. -/
def shelter (network : Network) (node : Node) : Network :=
  { network with nodes := network.nodes.push node }

/-- Number of bytes that fit into one direction of a stream. -/
def pipeCapacity : Nat := 65536

/-- The worker that looks from outside. -/
def visitor : WorkerId := ⟨0⟩

/-- The place of a worker that runs a job. -/
def place (worker : WorkerId) : Nat := worker.number - 1

/-- Lets a worker run. -/
def rouse (network : Network) (worker : WorkerId) : Network :=
  if worker = visitor then { network with visitorReady := true }
  else if worker ∈ network.ready then network
  else { network with ready := network.ready ++ [worker] }

/-- Lets a worker run, if there is one. -/
def rouse? (network : Network) (worker : Option WorkerId) : Network :=
  match worker with
  | some worker => network.rouse worker
  | none => network

/-- The moment it is. Later moments of the same millisecond have later turns. -/
def now (network : Network) : Instant × Network :=
  (⟨network.tick, network.turns⟩, { network with turns := network.turns + 1 })

def isPast (network : Network) (moment : Instant) : Bool := decide (moment.tick ≤ network.tick)

/-- Puts an alarm in its place among the others. -/
def insertAlarm (alarm : Alarm) : List Alarm → List Alarm
  | [] => [alarm]
  | first :: rest =>
    if alarm.due.isBefore first.due then alarm :: first :: rest
    else first :: insertAlarm alarm rest

/-- Sets the alarms of a worker, in place of those it had. -/
def setAlarms (network : Network) (worker : WorkerId) (dues : List Instant) : Network :=
  let others := network.alarms.filter (·.worker ≠ worker)
  { network with
    alarms := dues.foldl (fun alarms due => insertAlarm ⟨due, worker⟩ alarms) others }

/-- Lets time pass until the next alarm, and rouses everyone whose alarm is then due. There is
nothing to wait for without an alarm. -/
def advance (network : Network) : Option Network :=
  match network.alarms with
  | [] => none
  | first :: _ =>
    let tick := max network.tick first.due.tick
    let (due, later) := network.alarms.span fun alarm => alarm.due.tick ≤ tick
    some (due.foldl (fun network alarm => network.rouse alarm.worker)
      { network with tick, alarms := later })

def pipe (network : Network) (index : Nat) : Pipe := network.pipes.getD index (.empty none)

def setPipe (network : Network) (index : Nat) (pipe : Pipe) : Network :=
  { network with pipes := network.pipes.setIfInBounds index pipe }

def streamEnd (network : Network) (stream : StreamId) : StreamEnd :=
  network.ends.getD stream.number ⟨0, 0, 0⟩

/-- A new stream: the end of the one who opened it, which gets the latency, and the other end. -/
def openStream (network : Network) (capacity : Option Nat) (latency : Nat) :
    (StreamId × StreamId) × Network :=
  let there := network.pipes.size
  let back := there + 1
  let near := network.ends.size
  ((⟨near⟩, ⟨near + 1⟩),
    { network with
      pipes := (network.pipes.push (.empty capacity)).push (.empty capacity)
      ends := (network.ends.push ⟨back, there, latency⟩).push ⟨there, back, 0⟩ })

/-- The milliseconds that pass before a read from an address delivers. -/
def setLatency (network : Network) (address : SocketAddress) (latency : Nat) : Network :=
  { network with latencies := (address, latency) :: network.latencies }

/-- Makes an address refuse connections, or take them again. -/
def setDown (network : Network) (address : SocketAddress) (isDown : Bool) : Network :=
  let others := network.down.filter (· ≠ address)
  { network with down := if isDown then address :: others else others }

/-- Changes every node. -/
def eachNode (network : Network) (change : Node → Node) : Network :=
  { network with nodes := network.nodes.map change }

/-- Puts bytes into a pipe and rouses its reader. -/
def putBytes (network : Network) (index : Nat) (bytes : Wire.Bytes) : Network :=
  let pipe := network.pipe index
  (network.setPipe index (pipe.put bytes)).rouse? pipe.reader

/-- Closes a pipe and rouses whoever waits at it. -/
def closePipe (network : Network) (index : Nat) : Network :=
  let pipe := network.pipe index
  ((network.setPipe index pipe.close).rouse? pipe.reader).rouse? pipe.writer

/-- Closes both directions of a stream. -/
def closeStream (network : Network) (stream : StreamId) : Network :=
  let ends := network.streamEnd stream
  (network.closePipe ends.outgoing).closePipe ends.incoming

/-- A stream from outside on which bytes have arrived, with nothing after them if it is closed: the
outer end and the inner one. -/
def arrive (network : Network) (bytes : Wire.Bytes) (closed : Bool) :
    (StreamId × StreamId) × Network :=
  let ((outer, inner), network) := network.openStream none 0
  let index := (network.streamEnd outer).outgoing
  let network := network.putBytes index bytes
  ((outer, inner), if closed then network.closePipe index else network)

/-- The bytes that wait at an end of a stream. -/
def waiting (network : Network) (stream : StreamId) : Wire.Bytes :=
  (network.pipe (network.streamEnd stream).incoming).content

/-- Starts a job of a node. -/
def launch (network : Network) (node : Nat) (job : Job) : WorkerId × Network :=
  let worker : WorkerId := ⟨network.workers.size + 1⟩
  let started := { network with
    workers := network.workers.push ⟨node, some ⟨Node.turn job, .fresh⟩⟩ }
  (worker, started.rouse worker)

/-- Whether a job is over. -/
def isOver (network : Network) (worker : WorkerId) : Bool :=
  match network.workers[place worker]? with
  | some worker => worker.turn.isNone
  | none => true

/-- Rings a bell. A momentary signal goes to the first listener that has none yet, and is kept if
there is no such listener; others ring for ever. -/
def ring (network : Network) (bell : Bell) : Network :=
  let kept :=
    if bell ∈ network.ringing then network
    else { network with ringing := network.ringing ++ [bell] }
  if bell.signal.isMomentary then
    match network.listeners.find? fun listener => listener.bell = bell && !listener.rung with
    | some heard =>
      { network with
        listeners := network.listeners.map fun listener =>
          if listener = heard then { listener with rung := true } else listener }.rouse heard.worker
    | none => kept
  else
    (network.listeners.filter (·.bell = bell)).foldl
      (fun network listener => network.rouse listener.worker) kept

end Network

end Overlay
