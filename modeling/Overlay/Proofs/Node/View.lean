import Mathlib.Data.Finset.Card
import Overlay.Proofs.Node.Dealings
import Overlay.Proofs.Node.Membership
import Overlay.Proofs.PeerCache.Sampling

/-!
The view of the network that the engines of a node give together.

Whatever a node has dealt in, its view lists every peer that one of its engines knows, each of them
once and with a record that is not outdated (`complete_cachedNodes`). What is drawn from the view
does not depend on the order in which it lists the peers, as long as the source may offer anything:
as many different peers as were asked for, or all of them, and one peer, if there is one
(`view_complete`).
-/

set_option autoImplicit false

namespace Overlay.Node.View

open Chance Dealings Interleaving PeerCache Surroundings

/-- Some engine has a copy of the record. -/
def Held (node : Node) (record : PeerRecord) : Prop :=
  ∃ engine ∈ node.engines, ∃ copy ∈ engine.cache.entries, copy.record = record

/-- The peers that the engines know. -/
def knownPeers (node : Node) : Finset PeerId :=
  (node.engines.flatMap fun engine => ids engine.cache.entries).toFinset

/-- A list of records that leaves nobody out, names nobody twice, and has for each peer one of the
records held of it, with an epoch that none of them exceeds. -/
structure Complete (node : Node) (listed : List PeerRecord) : Prop where
  distinct : (listed.map (·.id)).Nodup
  known : ∀ id, id ∈ listed.map (·.id) ↔ id ∈ knownPeers node
  foreign : node.record.id ∉ listed.map (·.id)
  held : ∀ record ∈ listed, Held node record
  latest : ∀ record ∈ listed, ∀ other, Held node other → other.id = record.id →
    other.epoch ≤ record.epoch

/-- One of the records listed, if there is any. -/
def pick (listed : List PeerRecord) : Chance (Option PeerRecord) :=
  if listed.isEmpty then pure none
  else do
    let place ← Dice.index listed.length
    pure listed[place]?

/-- Records of different peers from the view of a node, as many as wanted or of all peers. -/
structure Several (node : Node) (count : Nat) (drawn : List PeerRecord) : Prop where
  length : drawn.length = min count (knownPeers node).card
  distinct : (drawn.map (·.id)).Nodup
  listed : drawn ⊆ node.cachedNodes

/-- A record from the view of a node, or none if nobody is known. -/
structure One (node : Node) (drawn : Option PeerRecord) : Prop where
  absent : drawn = none ↔ knownPeers node = ∅
  listed : ∀ record ∈ drawn, record ∈ node.cachedNodes

section Listing

variable {node : Node} {listed other : List PeerRecord}

theorem mem_knownPeers {id : PeerId} :
    id ∈ knownPeers node ↔ ∃ engine ∈ node.engines, id ∈ ids engine.cache.entries := by
  rw [knownPeers, List.mem_toFinset, List.mem_flatMap]

theorem held_iff {record : PeerRecord} :
    Held node record ↔ record ∈ node.engines.flatMap fun engine => engine.cache.records := by
  simp only [Held, List.mem_flatMap, records, List.mem_map]

theorem mem_map_records (id : PeerId) :
    id ∈ (node.engines.flatMap fun engine => engine.cache.records).map (·.id) ↔
      id ∈ knownPeers node := by
  rw [knownPeers, List.mem_toFinset, List.map_flatMap]
  simp only [records, List.map_map]
  exact Iff.rfl

theorem complete_cachedNodes (foreign : node.record.id ∉ knownPeers node) :
    Complete node node.cachedNodes := by
  have newest := newest_newest (node.engines.flatMap fun engine => engine.cache.records)
  have everyone (id : PeerId) : id ∈ node.cachedNodes.map (·.id) ↔ id ∈ knownPeers node :=
    (newest.known id).trans (mem_map_records id)
  refine ⟨newest.distinct, everyone, fun own => foreign ((everyone _).mp own), ?_, ?_⟩
  · exact fun record member => held_iff.mpr (newest.part member)
  · exact fun record member other held =>
      newest.latest record member other (held_iff.mp held)

theorem Complete.perm (complete : Complete node listed) (same : other.Perm listed) :
    Complete node other where
  distinct := (same.map _).nodup_iff.mpr complete.distinct
  known id := (same.map _).mem_iff.trans (complete.known id)
  foreign own := complete.foreign ((same.map _).mem_iff.mp own)
  held record member := complete.held record (same.mem_iff.mp member)
  latest record member := complete.latest record (same.mem_iff.mp member)

theorem Complete.card (complete : Complete node listed) :
    (knownPeers node).card = listed.length := by
  have same : knownPeers node = (listed.map (·.id)).toFinset := by
    ext id
    rw [List.mem_toFinset, complete.known]
  rw [same, List.toFinset_card_of_nodup complete.distinct, List.length_map]

theorem Complete.several (complete : Complete node listed) (listing : listed ⊆ node.cachedNodes)
    (count : Nat) : (Dice.deal count listed).Ensures (Several node count) := by
  refine (deal_subperm count listed).mono fun drawn dealt => ?_
  obtain ⟨part, length⟩ := dealt
  refine ⟨?_, ?_, fun record member => listing (part.subset member)⟩
  · rw [length, complete.card]
  · obtain ⟨chosen, same, among⟩ := part
    exact (same.map _).nodup_iff.mp (complete.distinct.sublist (among.map _))

theorem Complete.one (complete : Complete node listed) (listing : listed ⊆ node.cachedNodes) :
    (pick listed).Ensures (One node) := by
  have nobody : knownPeers node = ∅ ↔ listed = [] := by
    rw [← Finset.card_eq_zero, complete.card, List.length_eq_zero_iff]
  rw [pick]
  split
  · next empty =>
      refine (ensures_pure _ _).mpr ⟨?_, nofun⟩
      exact iff_of_true rfl (nobody.mpr (List.isEmpty_iff.mp empty))
  · next more =>
      have somebody : listed ≠ [] := fun none => more (List.isEmpty_iff.mpr none)
      refine (ensures_index _ (List.length_pos_of_ne_nil somebody)).bind fun place inside => ?_
      refine (ensures_pure _ _).mpr ?_
      rw [List.getElem?_eq_getElem inside]
      refine ⟨iff_of_false (Option.some_ne_none _) fun none => somebody (nobody.mp none), ?_⟩
      rintro record ⟨⟩
      exact listing (List.getElem_mem inside)

end Listing

section Reached

variable {settings : Settings} {own : PeerId} {shared : Shared Node}

theorem foreign_knownPeers (reached : Reached settings own shared) :
    shared.state.record.id ∉ knownPeers shared.state := by
  intro self
  obtain ⟨engine, runs, copied⟩ := mem_knownPeers.mp self
  obtain ⟨copy, held, same⟩ := List.mem_map.mp copied
  have sound := (reached.engines engine runs).sound
  have named := reached.running.named.trans sound.owned.symm
  exact sound.cache.foreign copy held (same.trans named)

/-- At any time, a node runs one engine for each algorithm in its settings, and its view lists the
peers that these engines know, each once, with the newest record of it, and never the node itself.
In whatever order the view lists them and whatever the source offers, as many different peers are
drawn from it as were wanted, or all, and a peer is drawn from it if there is any. -/
theorem view_complete (reached : Reached settings own shared) :
    shared.state.engines.map (·.algorithm) = settings.algorithms.eraseDups ∧
      Complete shared.state shared.state.cachedNodes ∧
      (∀ count, (shared.state.randomCachedNodes count).Ensures (Several shared.state count)) ∧
      shared.state.randomCachedNode.Ensures (One shared.state) ∧
      ∀ listed : List PeerRecord, listed.Perm shared.state.cachedNodes →
        Complete shared.state listed ∧
          (∀ count, (Dice.deal count listed).Ensures (Several shared.state count)) ∧
          (pick listed).Ensures (One shared.state) := by
  have complete := complete_cachedNodes (foreign_knownPeers reached)
  refine ⟨reached.running.algorithms, complete, ?_, ?_, fun listed same => ?_⟩
  · exact complete.several (List.Subset.refl _)
  · exact complete.one (List.Subset.refl _)
  · have reordered := complete.perm same
    exact ⟨reordered, reordered.several same.subset, reordered.one same.subset⟩

end Reached

section Overlap

/-- A request of a peer that tells of itself and of the first peer. -/
def telling (algorithm : Algorithm) (number : Nat) (epoch : UInt64) : Message :=
  { sender := .numbered number, receiver := .numbered 0
    entries := [.fresh (.numbered number) ⟨0⟩ 60000,
      .fresh { PeerRecord.numbered 1 with epoch } ⟨0⟩ 60000]
    isRequest := true, algorithm := algorithm.name }

/-- A stream that brings one message and takes any answer. -/
def bringing (message : Message) : (request : Request) → request.Reply :=
  let frame := Wire.frame Wire.Layout.message message
  answering (.opened ⟨0⟩) fun count =>
    .bytes (if count = 4 then frame.take 4 else frame.drop 4)

/-- Settings that name one algorithm twice. -/
def repetitive : Settings := { Settings.brisk with algorithms := [.arrg, .cyclon, .arrg] }

/-- A node with two engines, the second of which heard of a newer record of the first peer. -/
def overlapping : Shared Node :=
  let node := Node.start repetitive (.numbered 0) ⟨0⟩ .last .none none
  let serve := (Dealing.serve .gossip ⟨0⟩).program
  let first := outcome (bringing (telling .arrg 2 3)) serve (node, [])
  let second := outcome (bringing (telling .cyclon 3 5)) serve first
  ⟨second.1, second.2, [.done ⟨⟩, .done ⟨⟩]⟩

theorem reached_overlapping : Reached repetitive (.ofNat 0) overlapping := by
  refine ⟨.numbered 0, ⟨0⟩, .last, .none, none, rfl, ?_⟩
  refine Reachable.runs (bringing (telling .cyclon 3 5)) (Dealing.serve .gossip ⟨0⟩) ?_
  exact Reachable.start.runs (bringing (telling .arrg 2 3)) (Dealing.serve .gossip ⟨0⟩)

theorem view_complete_overlapping :
    Reached repetitive (.ofNat 0) overlapping ∧
      overlapping.state.engines.map (·.algorithm) = [.arrg, .cyclon] ∧
      overlapping.state.cachedNodes.map (fun record => (record.id.toNat, record.epoch)) =
        [(2, 0), (1, 5), (3, 0)] ∧
      Complete overlapping.state overlapping.state.cachedNodes ∧
      (∀ count, (Dice.deal count overlapping.state.cachedNodes.reverse).Ensures
        (Several overlapping.state count)) ∧
      (pick overlapping.state.cachedNodes.reverse).Ensures (One overlapping.state) := by
  obtain ⟨engines, complete, _, _, reordered⟩ := view_complete reached_overlapping
  obtain ⟨_, several, one⟩ := reordered _ (List.reverse_perm _)
  exact ⟨reached_overlapping, engines, by decide +kernel, complete, several, one⟩

end Overlap

end Overlay.Node.View
