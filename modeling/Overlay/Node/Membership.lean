import Overlay.Node.State

/-!
The view of the network that all engines of a node give together: every known peer once, with the
newest of its records.
-/

set_option autoImplicit false

namespace Overlay.Node

/-- Puts a record in the place of an older one of the same peer, or at the end if there is none. -/
def upsertNewest (record : PeerRecord) : List PeerRecord → List PeerRecord
  | [] => [record]
  | held :: rest =>
    if held.id = record.id then (if held.epoch < record.epoch then record else held) :: rest
    else held :: upsertNewest record rest

/-- The newest record of every peer, in the order in which the peers come up. -/
def newest (records : List PeerRecord) : List PeerRecord :=
  records.foldl (fun kept record => upsertNewest record kept) []

/-- The first record of every peer. -/
def firsts : List PeerRecord → List PeerRecord
  | [] => []
  | record :: rest => record :: (firsts rest).filter (·.id != record.id)

/-- Every peer that some engine knows. -/
def cachedNodes (node : Node) : List PeerRecord :=
  newest (node.engines.flatMap fun engine => engine.cache.records)

/-- Every peer that answered some engine lately. -/
def fallbackNodes (node : Node) : List PeerRecord :=
  firsts (node.engines.flatMap Engine.fallbackNodes)

/-- A random one of the peers that some engine knows. -/
def randomCachedNode (node : Node) : Chance (Option PeerRecord) :=
  let nodes := node.cachedNodes
  if nodes.isEmpty then pure none
  else do
    let place ← Dice.index nodes.length
    pure nodes[place]?

/-- Up to `count` different peers that some engine knows, in random order. -/
def randomCachedNodes (node : Node) (count : Nat) : Chance (List PeerRecord) :=
  Dice.deal count node.cachedNodes

/-- The peers from which neighbors are chosen. -/
def knownNodes (node : Node) : List PeerRecord := node.membership.getD node.cachedNodes

/-- The peer that a refinement turns to beside a neighbor. -/
def randomKnownNode (node : Node) : Chance (Option PeerRecord) :=
  match node.membership with
  | some records => pure records.head?
  | none => node.randomCachedNode

/-- The statistics of all engines. -/
def stats (node : Node) : List Stats := node.engines.map Engine.stats

end Overlay.Node
