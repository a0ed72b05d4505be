import Mathlib.Logic.Function.Basic
import Mathlib.Logic.Relation
import Overlay.Node.Job

/-!
Any number of nodes at work with each other.

Every node runs its jobs, any number of them and in any order. A job goes on without interruption
until it waits: for a connection, for bytes, for room to write, or for time to pass. What it waits
for may come after any other steps of the swarm, in part, or not at all: connections fail or reach
another node than the one asked for, bytes are lost, and every wait may be cut short.

A chronicle remembers what no node knows: the records that every node has advertised, and the
latest time at which it told others about itself.
-/

set_option autoImplicit false

namespace Overlay.Swarm

/-- What an observer of all nodes has seen. -/
structure Chronicle where
  /-- The records that a peer has advertised, the latest one first. -/
  advertised : PeerId → List PeerRecord
  /-- The latest time at which a peer built a payload of gossip or answered a question for its
  record. -/
  spoken : PeerId → Option Timestamp

namespace Chronicle

/-- The chronicle after a peer was seen with a record. -/
def advertise (chronicle : Chronicle) (record : PeerRecord) : Chronicle :=
  if (chronicle.advertised record.id).head? = some record then chronicle
  else { chronicle with
    advertised := Function.update chronicle.advertised record.id
      (record :: chronicle.advertised record.id) }

/-- The chronicle after a peer has spoken. -/
def speak (chronicle : Chronicle) (id : PeerId) (now : Timestamp) : Chronicle :=
  { chronicle with
    spoken := Function.update chronicle.spoken id (some (match chronicle.spoken id with
      | some before => if before ≤ now then now else before
      | none => now)) }

end Chronicle

/-- One end of a stream. -/
structure Link where
  name : StreamId
  /-- The name of the other end. -/
  peer : StreamId
  tag : Wire.ServiceTag
  /-- Whether this is the end of the node that was called. -/
  isCallee : Bool
  opened : Timestamp
  /-- Everything that was written into this end. -/
  sent : Wire.Bytes
  /-- When it was written. -/
  stamp : Timestamp
  /-- Everything that was read from this end. -/
  got : Wire.Bytes

/-- What a job has to do with: its node, the chronicle, and the end of a stream that it holds. -/
structure View where
  node : Node
  chronicle : Chronicle
  link : Option Link
  /-- Whether the job looks for peers from outside. -/
  isSeeding : Bool

/-- Whether a job has to wait until a request is answered. -/
def waits : Request → Bool
  | .connect .. | .read .. | .write .. | .pause .. | .join _ => true
  | _ => false

namespace View

/-- Leaves another state of the node behind, whose record others get to see. -/
def leave (view : View) (state : Node) : View :=
  { view with node := state, chronicle := view.chronicle.advertise state.record }

/-- A node tells about itself. -/
def speak (view : View) : View :=
  { view with chronicle := view.chronicle.speak view.node.record.id view.node.clock }

/-- Puts bytes into the end of a stream. -/
def put (view : View) (link : Link) (bytes : Wire.Bytes) : View :=
  { view with
    link := some { link with sent := link.sent ++ bytes, stamp := view.node.clock } }

/-- What has happened once a job waits for an answer. A round of gossip connects right after its
payload was built, and a service writes right after its answer was; what was written is under
way. -/
def issue (view : View) : Request → View
  | .connect _ .gossip _ _ => view.speak
  | .write stream bytes _ =>
    match view.link with
    | some link =>
      if link.name = stream then
        if link.isCallee ∧ link.tag ≠ .vivaldi then view.speak.put link bytes
        else view.put link bytes
      else view
    | none => view
  | _ => view

end View

/-- A program goes on until it is done or has to wait. -/
inductive Settles {α : Type} : Program Node α → View → Program Node α → View → Prop
  | done (value : α) (now : View) : Settles (.done value) now (.done value) now
  | wait (request : Request) (next : request.Reply → Program Node α) (now : View)
      (waiting : waits request) :
      Settles (.ask request next) now (.ask request next) (now.issue request)
  | get {next : Node → Program Node α} {rest : Program Node α} {now after : View}
      (settles : Settles (next now.node) now rest after) : Settles (.get next) now rest after
  | put {state : Node} {next rest : Program Node α} {now after : View}
      (settles : Settles next (now.leave state) rest after) :
      Settles (.put state next) now rest after
  | ask {request : Request} {next : request.Reply → Program Node α} {rest : Program Node α}
      {now after : View} (reply : request.Reply) (instant : ¬ waits request)
      (settles : Settles (next reply) now rest after) : Settles (.ask request next) now rest after

/-- How far a job has come. -/
inductive Stage
  | ready (job : Job)
  | standing (request : Request) (next : request.Reply → Program Node (Option Job))
  | ended

/-- The stage at which a turn has settled. -/
def Stage.of : Program Node (Option Job) → Stage
  | .done (some job) => .ready job
  | .ask request next => .standing request next
  | _ => .ended

/-- A job at work. -/
structure Task (size : Nat) where
  host : Fin size
  /-- The end of a stream that was opened last. -/
  held : Option StreamId
  isSeeding : Bool
  stage : Stage

/-- A job that a node starts on its own. -/
def isOwn : Job → Bool
  | .serve .. | .script .. | .scriptedReply .. => false
  | _ => true

/-- A job that looks for peers from outside. -/
def seeds : Job → Bool
  | .gossip .. | .gossipRound .. => true
  | _ => false

/-- How time passes: every node has a clock of its own, which may be set at will, or all nodes read
one clock, which does not go back, keep copies for the same time, and get answers to their questions
for records before that time is over. -/
inductive Timing
  | free
  | shared (lifetime : UInt64)

end Swarm

/-- Nodes at work with each other. -/
structure Swarm (size : Nat) where
  nodes : Fin size → Node
  chronicle : Swarm.Chronicle
  links : StreamId → Option Swarm.Link
  tasks : Nat → Option (Swarm.Task size)

namespace Swarm

variable {size : Nat}

/-- What a task has to do with. -/
def view (swarm : Swarm size) (task : Task size) : View :=
  { node := swarm.nodes task.host
    chronicle := swarm.chronicle
    link := task.held.bind swarm.links
    isSeeding := task.isSeeding }

/-- The swarm after a task has settled. -/
def settle (swarm : Swarm size) (place : Nat) (task : Task size) (rest : Program Node (Option Job))
    (after : View) : Swarm size :=
  { nodes := Function.update swarm.nodes task.host after.node
    chronicle := after.chronicle
    links := match after.link with
      | some link => Function.update swarm.links link.name (some link)
      | none => swarm.links
    tasks := Function.update swarm.tasks place (some { task with stage := .of rest }) }

/-- Whether bytes that were written at some time are not read too late. -/
def InTime (timing : Timing) (now : View) (link peer : Link) : Prop :=
  match timing with
  | .free => True
  | .shared lifetime =>
    link.tag = .nodeInfo → now.isSeeding → now.node.clock < peer.stamp.plus lifetime

/-- The answer to the request of a task, and what it has to do with afterwards. A connection that is
made is none of these: it makes a new task. -/
def Answers (timing : Timing) (swarm : Swarm size) (now : View) :
    (request : Request) → request.Reply → View → Prop
  | .connect .., reply, after => (∀ name, reply ≠ .opened name) ∧ after = now
  | .read stream count _, reply, after => ∃ link peer got,
      now.link = some link ∧ link.name = stream ∧ swarm.links link.peer = some peer ∧
      (link.got ++ got) <+: peer.sent ∧
      (∀ content, reply = .bytes content →
        content = got ∧ got.length = count ∧ InTime timing now link peer) ∧
      after = { now with link := some { link with got := link.got ++ got } }
  | .write .., _, after => after = now
  | .pause .., _, after => after = now
  | .join _, _, after => after = now
  | _, _, _ => False

/-- The swarm after a task has connected to a node, which serves it with a task of its own. -/
def connect (swarm : Swarm size) (place : Nat) (task : Task size) (tag : Wire.ServiceTag)
    (caller callee : StreamId) (host : Fin size) (server : Nat) : Swarm size :=
  let now := (swarm.nodes task.host).clock
  let calling : Link := ⟨caller, callee, tag, false, now, [], now, []⟩
  let called : Link := ⟨callee, caller, tag, true, now, [], now, []⟩
  let serving : Task size := ⟨host, some callee, false, .ready (.serve tag callee)⟩
  { swarm with
    links := Function.update (Function.update swarm.links caller (some calling)) callee
      (some called)
    tasks := Function.update (Function.update swarm.tasks place
      (some { task with held := some caller })) server (some serving) }

/-- One step of a swarm. -/
inductive Step (timing : Timing) : Swarm size → Swarm size → Prop
  /-- A node starts a job. -/
  | start (swarm : Swarm size) (host : Fin size) (job : Job) (place : Nat) (own : isOwn job)
      (free : swarm.tasks place = none) :
      Step timing swarm { swarm with
        tasks := Function.update swarm.tasks place (some ⟨host, none, seeds job, .ready job⟩) }
  /-- A job begins its next turn. -/
  | turn (swarm : Swarm size) (place : Nat) (task : Task size) (job : Job)
      (rest : Program Node (Option Job)) (after : View) (found : swarm.tasks place = some task)
      (ready : task.stage = .ready job)
      (settles : Settles (Node.turn job) (swarm.view task) rest after) :
      Step timing swarm (swarm.settle place task rest after)
  /-- A job that waits gets its answer. -/
  | reply (swarm : Swarm size) (place : Nat) (task : Task size) (request : Request)
      (next : request.Reply → Program Node (Option Job)) (reply : request.Reply)
      (rest : Program Node (Option Job)) (middle after : View)
      (found : swarm.tasks place = some task) (standing : task.stage = .standing request next)
      (answer : swarm.Answers timing (swarm.view task) request reply middle)
      (settles : Settles (next reply) middle rest after) :
      Step timing swarm (swarm.settle place task rest after)
  /-- A job that waits for a connection gets one to some node. -/
  | connection (swarm : Swarm size) (place : Nat) (task : Task size) (address : SocketAddress)
      (tag : Wire.ServiceTag) (patience : Duration) (deadline : Instant)
      (next : Connecting → Program Node (Option Job)) (caller callee : StreamId)
      (host : Fin size) (server : Nat) (rest : Program Node (Option Job)) (after : View)
      (found : swarm.tasks place = some task)
      (standing : task.stage = .standing (.connect address tag patience deadline) next)
      (freeCaller : swarm.links caller = none) (freeCallee : swarm.links callee = none)
      (apart : caller ≠ callee) (freeServer : swarm.tasks server = none)
      (settles : Settles (next (.opened caller))
        ((swarm.connect place task tag caller callee host server).view
          { task with held := some caller }) rest after) :
      Step timing swarm ((swarm.connect place task tag caller callee host server).settle place
        { task with held := some caller } rest after)
  /-- The clock of a node is set. -/
  | clock (swarm : Swarm size) (host : Fin size) (time : Timestamp) (free : timing = .free) :
      Step timing swarm { swarm with
        nodes := Function.update swarm.nodes host { swarm.nodes host with clock := time } }
  /-- Time passes for all nodes. -/
  | pass (swarm : Swarm size) (time : Timestamp)
      (later : ∀ host, (swarm.nodes host).clock ≤ time) :
      Step timing swarm { swarm with
        nodes := fun host => { swarm.nodes host with clock := time } }
  /-- A node sweeps the cache of an engine. -/
  | cleanup (swarm : Swarm size) (host : Fin size) (algorithm : Algorithm) :
      Step timing swarm { swarm with
        nodes := Function.update swarm.nodes host
          (let node := swarm.nodes host
          let engine := node.engine algorithm
          let (cache, dice) := engine.cache.cleanup node.clock node.dice
          { node with dice }.withEngine { engine with cache }) }

/-- Any number of steps. -/
def Run (timing : Timing) : Swarm size → Swarm size → Prop := Relation.ReflTransGen (Step timing)

/-- Nodes with names of their own that have heard of nobody yet, that get peers from the addresses
of other nodes if at all, and that have not done anything. -/
structure Begins (timing : Timing) (swarm : Swarm size) : Prop where
  nodes : ∀ host, ∃ settings record clock dice bootstrap,
    (bootstrap = .none ∨ ∃ addresses, bootstrap = .addresses addresses) ∧
    swarm.nodes host = Node.start settings record clock dice bootstrap none
  distinct : ∀ first second,
    (swarm.nodes first).record.id = (swarm.nodes second).record.id → first = second
  advertised : ∀ host,
    swarm.chronicle.advertised (swarm.nodes host).record.id = [(swarm.nodes host).record]
  strangers : ∀ id, (∀ host, (swarm.nodes host).record.id ≠ id) →
    swarm.chronicle.advertised id = []
  silent : ∀ id, swarm.chronicle.spoken id = none
  links : ∀ name, swarm.links name = none
  tasks : ∀ place, swarm.tasks place = none
  timing : ∀ lifetime, timing = .shared lifetime → ∃ time, ∀ host,
    (swarm.nodes host).clock = time ∧ (swarm.nodes host).settings.entryLifetime = lifetime

end Swarm

end Overlay
