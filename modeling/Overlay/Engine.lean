import Overlay.Failure
import Overlay.PeerCache.Sampling
import Overlay.Settings.Basic
import Overlay.Wire.Bodies

/-!
The engine of one exchange algorithm: its caches, and what a request and a reply do to them.

A node answers a request from the cache it had before, and only then merges what the request
brought (`answer`); a reply is checked first (`objection?`) and merged afterwards (`accept`). The
tally keeps the outcomes of rounds and the peers of the latest payloads.
-/

set_option autoImplicit false

namespace Overlay

/-- What an engine has done so far. -/
structure Tally where
  /-- Rounds that brought a reply. -/
  exchanges : Nat
  /-- Rounds that failed for good. -/
  failures : Nat
  /-- Rounds in which a second peer was tried. -/
  fallbackRetries : Nat
  requestsServed : Nat
  /-- The peers of the latest payloads that were taken in, oldest payload first. -/
  observed : List (List PeerId)
deriving DecidableEq, Inhabited, Repr

namespace Tally

def zero : Tally := ⟨0, 0, 0, 0, []⟩

/-- How many payloads are kept to estimate the size of the network. -/
def observedLimit : Nat := 64

/-- Takes note of a payload; the oldest one is forgotten where too many would be kept. -/
def observe (tally : Tally) (payload : List Entry) : Tally :=
  let kept :=
    if tally.observed.length = observedLimit then tally.observed.drop 1 else tally.observed
  { tally with observed := kept ++ [payload.map Entry.id] }

/-- The number of different peers in the payloads that are kept. -/
def networkSize (tally : Tally) : Nat := tally.observed.flatten.eraseDups.length

end Tally

/-- One exchange algorithm at work. -/
structure Engine where
  algorithm : Algorithm
  settings : Settings
  cache : PeerCache
  /-- Peers that answered lately, kept for a second attempt by algorithms that make one. -/
  fallback : Option PeerCache
  startedAt : Timestamp
  tally : Tally
deriving Inhabited, Repr

namespace Engine

/-- A new engine, with empty caches. -/
def start (algorithm : Algorithm) (settings : Settings) (owner : PeerId) (now : Timestamp) :
    Engine :=
  let policy := algorithm.policy
  let cache := fun (capacity : UInt64) =>
    PeerCache.empty owner capacity.toNat settings.version policy.eviction
  { algorithm
    settings
    cache := cache settings.cacheSize
    fallback := if policy.keepsFallback then some (cache settings.fallbackCacheSize) else none
    startedAt := now
    tally := .zero }

def owner (engine : Engine) : PeerId := engine.cache.owner

/-- A new copy of a record, as old as it can get. -/
def fresh (engine : Engine) (record : PeerRecord) (now : Timestamp) : Entry :=
  Entry.fresh record now engine.settings.entryLifetime

/-- What an engine tells other nodes: some of its peers, and its own node last. -/
def payload (engine : Engine) (own : PeerRecord) (now : Timestamp) : Chance (List Entry) := do
  let peers ← engine.cache.sample (engine.settings.sendSize.toNat - 1)
  pure (peers ++ [engine.fresh own now])

/-- A message to a node. -/
def message (engine : Engine) (own : PeerRecord) (now : Timestamp) (receiver : PeerRecord)
    (isRequest : Bool) : Chance Message := do
  let entries ← engine.payload own now
  pure { sender := own, receiver, entries, isRequest, algorithm := engine.algorithm.name }

/-- Why a message is not a request to this engine, if it is not. -/
def refusal? (engine : Engine) (request : Message) : Option Failure :=
  if request.algorithm != engine.algorithm.name then some (.unknownAlgorithm request.algorithm)
  else if !request.isRequest then some (.unexpectedMessage "gossip reply received as request")
  else none

/-- Takes note of a payload and merges it. -/
def learn (engine : Engine) (now : Timestamp) (entries : List Entry) : Chance Engine := do
  let cache ← engine.cache.addAll now entries
  pure { engine with cache, tally := engine.tally.observe entries }

/-- The reply to a request, and the engine after it. -/
def answer (engine : Engine) (own : PeerRecord) (now : Timestamp) (request : Message) :
    Chance (Message × Engine) := do
  let reply ← engine.message own now request.sender false
  let learned ← engine.learn now request.entries
  let served := learned.tally.requestsServed + 1
  pure (reply, { learned with tally := { learned.tally with requestsServed := served } })

/-- Why a message is not the reply of the node that was asked, if it is not. -/
def objection? (engine : Engine) (target : PeerRecord) (reply : Message) : Option Failure :=
  let expected := engine.algorithm.name
  if reply.isRequest || reply.algorithm != expected then
    let kind := if reply.isRequest then "request" else "reply"
    some (.unexpectedMessage
      ("expected " ++ expected ++ " reply, got " ++ reply.algorithm ++ " " ++ kind))
  else if reply.sender.id != target.id then some (.identityMismatch target.id reply.sender.id)
  else none

/-- Keeps the sender of a reply for later second attempts. -/
def keepFallback (engine : Engine) (now : Timestamp) (sender : PeerRecord) : Chance Engine := do
  match engine.fallback with
  | some pool =>
    let pool ← pool.replace (engine.fresh sender now) engine.settings.fallbackCacheSize.toNat
    pure { engine with fallback := some pool }
  | none => pure engine

/-- The engine after a reply without objection. -/
def accept (engine : Engine) (now : Timestamp) (reply : Message) : Chance Engine := do
  let learned ← engine.learn now reply.entries
  let kept ← learned.keepFallback now reply.sender
  pure { kept with tally := { kept.tally with exchanges := kept.tally.exchanges + 1 } }

/-- The engine after one more round that failed for good. -/
def failed (engine : Engine) : Engine :=
  { engine with tally := { engine.tally with failures := engine.tally.failures + 1 } }

/-- The engine after one more second attempt was begun. -/
def retried (engine : Engine) : Engine :=
  { engine with
    tally := { engine.tally with fallbackRetries := engine.tally.fallbackRetries + 1 } }

/-- The engine after a round has begun: everything in its cache is one round older. -/
def older (engine : Engine) : Engine := { engine with cache := engine.cache.growOlder }

/-- The peer that a round turns to. -/
def target (engine : Engine) : Chance (Option PeerRecord) := do
  let entry ← match engine.algorithm.policy.selection with
    | .random => engine.cache.randomEntry
    | .oldest => pure engine.cache.oldestEntry
  pure (entry.map (·.record))

/-- Whether a failed round is followed by a second attempt, if there is a peer for it. -/
def retries (engine : Engine) : Bool := engine.settings.gossipRetry && engine.fallback.isSome

/-- The time that one attempt may take: half of what a round may take where there may be two. -/
def patience (engine : Engine) : Duration :=
  if engine.retries then engine.settings.patience.half else engine.settings.patience

/-- The peers that answered lately. -/
def fallbackNodes (engine : Engine) : List PeerRecord :=
  (engine.fallback.map PeerCache.records).getD []

/-- The peer of a second attempt: one that answered lately, neither the one that just failed nor the
node itself. -/
def fallbackTarget (engine : Engine) (failed : PeerId) : Chance (Option PeerRecord) :=
  let pool := engine.fallbackNodes.filter fun record =>
    record.id != failed && record.id != engine.owner
  if pool.isEmpty then pure none
  else do
    let place ← Dice.index pool.length
    pure pool[place]?

/-- Whether the cache still takes in peers from outside: it has room, and the engine is young. -/
def wantsSeed (engine : Engine) (now : Timestamp) : Bool :=
  decide (engine.cache.size < engine.cache.capacity)
    && decide (now.since engine.startedAt < engine.settings.bootstrapWindow)

/-- Whether a peer from outside is news to the cache. -/
def isNews (engine : Engine) (record : PeerRecord) : Bool :=
  record.id != engine.owner && !engine.cache.contains record.id

/-- Takes in a peer from outside. -/
def seed (engine : Engine) (record : PeerRecord) (now : Timestamp) : Chance Engine := do
  let (_, cache) ← engine.cache.add (engine.fresh record now)
  pure { engine with cache }

/-- What the engine has done so far and what it holds. -/
def stats (engine : Engine) : Stats :=
  { algorithm := engine.algorithm.name
    exchanges := .ofNat engine.tally.exchanges
    failures := .ofNat engine.tally.failures
    fallbackRetries := .ofNat engine.tally.fallbackRetries
    requestsServed := .ofNat engine.tally.requestsServed
    networkSize := .ofNat engine.tally.networkSize
    cacheSize := .ofNat engine.cache.size
    fallbackSize := .ofNat ((engine.fallback.map PeerCache.size).getD 0) }

end Engine

end Overlay
