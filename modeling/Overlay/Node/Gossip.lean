import Overlay.Node.Record

/-!
Rounds of gossip, and the answers to the rounds of other nodes.

A round turns to one cached peer, and after a failed exchange to a second one that answered lately.
Nothing that a reply brings is merged before the reply has passed every check.
-/

set_option autoImplicit false

namespace Overlay.Node

open Attempt

/-- How a round ended that did not fail. -/
inductive Round
  /-- There was no peer to turn to. -/
  | skipped
  | exchanged (peer : PeerId) (received : Nat) (viaFallback : Bool)
deriving DecidableEq, Inhabited, Repr

/-- Takes in a peer from outside while the cache has room and the engine is young. -/
def seedCache (algorithm : Algorithm) : Program Node Unit := do
  let node ← get
  let isConfigured := match node.bootstrap with
    | .none => false
    | _ => true
  if isConfigured && (node.engine algorithm).wantsSeed node.clock then
    match ← bootstrapPeer with
    | none => pure ()
    | some record =>
      if ((← get).engine algorithm).isNews record then do
        Program.report (.seeded algorithm record.id)
        onEngine algorithm fun engine => do pure ((), ← engine.seed record node.clock)
      else pure ()
  else pure ()

/-- Sends a request and waits for the reply. -/
def talk (target : PeerRecord) (request : Message) (patience : Duration) (maximum : Nat) :
    Attempt Node Message := do
  let limit ← limit .exchange patience none
  connected target.address .gossip patience limit fun stream => do
    sendFrame Wire.Layout.message stream request maximum limit
    receiveFrame Wire.Layout.message stream maximum limit

/-- One exchange with a peer. The answer is the number of entries that the reply brought. -/
def exchange (algorithm : Algorithm) (target : PeerRecord) : Attempt Node Nat := do
  let node ← get
  let engine := node.engine algorithm
  let request ← perform (draw (engine.message node.record node.clock target true))
  let reply ← talk target request engine.patience node.settings.maxMessageBytes.toNat
  match engine.objection? target reply with
  | some failure => throw failure
  | none => do
    let now := (← get).clock
    perform (onEngine algorithm fun engine => do pure ((), ← engine.accept now reply))
    pure reply.entries.length

/-- The peer of a second attempt, if there is one. -/
def secondTarget (algorithm : Algorithm) (failed : PeerId) : Program Node (Option PeerRecord) := do
  let engine := (← get).engine algorithm
  if engine.retries then draw (engine.fallbackTarget failed) else pure none

/-- The second attempt of a round. -/
def retry (algorithm : Algorithm) (target : PeerRecord) : Attempt Node Round := do
  perform (updateEngine algorithm Engine.retried)
  let result ← perform (exchange algorithm target).run
  match result with
  | .ok received => pure (.exchanged target.id received true)
  | .error failure => do
    perform (updateEngine algorithm Engine.failed)
    perform (Program.report (.fallbackFailed algorithm target.id failure))
    throw failure

/-- The attempts of a round, once its peer is chosen. -/
def attempts (algorithm : Algorithm) (target : PeerRecord) : Attempt Node Round := do
  let result ← perform (exchange algorithm target).run
  match result with
  | .ok received => pure (.exchanged target.id received false)
  | .error failure => do
    perform (Program.report (.exchangeFailed algorithm target.id failure))
    match ← perform (secondTarget algorithm target.id) with
    | some second => retry algorithm second
    | none => do
      perform (updateEngine algorithm Engine.failed)
      throw failure

/-- One round of gossip. -/
def round (algorithm : Algorithm) : Attempt Node Round := do
  perform (seedCache algorithm)
  let target ← perform (onEngine algorithm fun engine => do
    let aged := engine.older
    pure (← aged.target, aged))
  match target with
  | none => do
    perform (Program.report (.emptyCache algorithm))
    pure .skipped
  | some target =>
    if target.id = (← get).record.id then pure .skipped else attempts algorithm target

/-- Answers a request with one engine. -/
def answerWith (algorithm : Algorithm) (request : Message) : Attempt Node Message := do
  let node ← get
  match (node.engine algorithm).refusal? request with
  | some failure => throw failure
  | none => do
    if request.receiver.id != node.record.id then
      perform (Program.report (.readdressed algorithm request.receiver.id))
    perform (onEngine algorithm fun engine => engine.answer node.record node.clock request)

/-- The algorithm of a name, if the node runs it. -/
def algorithmNamed (name : String) : Attempt Node Algorithm := do
  let node ← get
  match Algorithm.ofName? name with
  | some algorithm =>
    if node.engines.any (·.algorithm = algorithm) then pure algorithm
    else throw (.unknownAlgorithm name)
  | none => throw (.unknownAlgorithm name)

/-- Answers a request with the engine that it names. -/
def answer (request : Message) : Attempt Node Message := do
  let algorithm ← algorithmNamed request.algorithm
  answerWith algorithm request

/-- Answers on a stream whose tag was read. -/
def serveGossip (stream : StreamId) (outer : Option Limit) : Attempt Node Unit := do
  let settings := (← get).settings
  let maximum := settings.maxMessageBytes.toNat
  let patience := settings.patience
  let reading ← limit .gossipRequest patience outer
  let request ← receiveFrame Wire.Layout.message stream maximum reading
  let reply ← reporting .requestRejected (answer request)
  let writing ← limit .gossipReply patience outer
  sendFrame Wire.Layout.message stream reply maximum writing

/-- A round with what is reported about it. -/
def reportedRound (algorithm : Algorithm) : Program Node Unit := do
  match ← (round algorithm).run with
  | .ok .skipped => pure ()
  | .ok (.exchanged peer received viaFallback) => do
    let engine := (← get).engine algorithm
    Program.report (.roundCompleted algorithm peer received viaFallback engine.cache.size)
  | .error failure => Program.report (.roundFailed algorithm failure)

end Overlay.Node
