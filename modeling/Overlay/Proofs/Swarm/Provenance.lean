import Overlay.Proofs.Swarm.Reachable
import Overlay.Proofs.Swarm.Schedule

/-!
Where the records in a swarm come from.

Whatever record a node holds or a message tells, its peer has advertised it. As long as epochs do
not reach their last value, they number the records that a peer has advertised, so that two copies
of a peer with the same epoch are the same.
-/

set_option autoImplicit false

namespace Overlay.Swarm

variable {size : Nat} {timing : Timing} {start now : Swarm size}

/-- The records that can be found anywhere in a swarm: in the caches and the trackers of its nodes,
and in what was written into its streams. -/
inductive Found (swarm : Swarm size) : PeerRecord → Prop
  | cached {host : Fin size} {engine : Engine} {copy : Entry}
      (runs : engine ∈ (swarm.nodes host).engines) (held : copy ∈ engine.cache.entries) :
      Found swarm copy.record
  | fallback {host : Fin size} {engine : Engine} {pool : PeerCache} {copy : Entry}
      (runs : engine ∈ (swarm.nodes host).engines) (kept : engine.fallback = some pool)
      (held : copy ∈ pool.entries) : Found swarm copy.record
  | tracked {host : Fin size} {tracker : Tracker} (made : tracker ∈ (swarm.nodes host).trackers) :
      Found swarm tracker.record
  | told {name : StreamId} {link : Link} {maximum : Nat} {message : Message} {record : PeerRecord}
      (known : swarm.links name = some link) (tag : link.tag = .gossip)
      (complete : Wire.IsFrame Wire.Layout.message maximum link.sent message)
      (among : record ∈ message.sender :: message.receiver :: message.entries.map (·.record)) :
      Found swarm record
  | answered {name : StreamId} {link : Link} {maximum : Nat} {record : PeerRecord}
      (known : swarm.links name = some link) (tag : link.tag = .nodeInfo)
      (callee : link.isCallee = true)
      (complete : Wire.IsFrame Wire.Layout.peerRecord maximum link.sent record) :
      Found swarm record

/-- A record as its peer has advertised it, the only one of its epoch. -/
structure Attested (swarm : Swarm size) (record : PeerRecord) : Prop where
  current : ∃ host, (swarm.nodes host).record.id = record.id ∧
    (swarm.chronicle.advertised record.id).head? = some (swarm.nodes host).record ∧
    record.epoch ≤ (swarm.nodes host).record.epoch
  advertised : record ∈ swarm.chronicle.advertised record.id
  unique : ∀ other ∈ swarm.chronicle.advertised record.id, other.epoch = record.epoch →
    other = record

theorem Orderly.genuine {chronicle : Chronicle} {record : PeerRecord}
    (orderly : Orderly timing chronicle now) (found : Found now record) :
    Genuine now.chronicle record := by
  cases found with
  | cached runs held => exact (((orderly.nodes _).engines _ runs).cache _ held).genuine
  | fallback runs kept held => exact ((orderly.nodes _).engines _ runs).fallback _ kept _ held
  | tracked made => exact (orderly.nodes _).trackers _ made
  | told known tag complete among =>
      have truthful := truthful_of_isFrame (orderly.links _ _ known).carries tag complete
      rcases List.mem_cons.mp among with rfl | among
      · exact truthful.sender
      · rcases List.mem_cons.mp among with rfl | among
        · exact truthful.receiver
        · obtain ⟨copy, told, rfl⟩ := List.mem_map.mp among
          exact (truthful.entries copy told).genuine
  | answered known tag callee complete =>
      exact (answered_of_isFrame (orderly.links _ _ known).carries tag callee complete).genuine

section Histories

variable {records : List PeerRecord} {first : PeerRecord}

/-- Before the last epoch, publishing counts. -/
theorem epoch_publish {record : PeerRecord} (coordinate : Coordinate)
    (early : record.epoch.toNat + 1 < UInt64.size) :
    (record.publish coordinate).epoch.toNat = record.epoch.toNat + 1 := by
  rw [record.toNat_epoch_publish]
  omega

/-- The epochs of a history count its records from the first one on, and the address stays. -/
theorem Chained.place (chained : Chained records) (last : records.getLast? = some first)
    (few : first.epoch.toNat + records.length ≤ UInt64.size) {place : Nat} {record : PeerRecord}
    (here : records[place]? = some record) :
    record.epoch.toNat + place + 1 = first.epoch.toNat + records.length ∧
      record.address = first.address := by
  induction records generalizing place record with
  | nil => cases here
  | cons newest rest ih =>
      cases rest with
      | nil =>
          cases last
          cases place with
          | zero =>
              cases here
              exact ⟨rfl, rfl⟩
          | succ place => cases here
      | cons older others =>
          rw [List.getLast?_cons_cons] at last
          obtain ⟨⟨coordinate, rfl⟩, rest⟩ := List.isChain_cons_cons.mp chained
          simp only [List.length_cons] at few ih ⊢
          have before (place : Nat) (record : PeerRecord)
              (there : (older :: others)[place]? = some record) :=
            ih rest last (by omega) there
          cases place with
          | zero =>
              cases here
              obtain ⟨count, address⟩ := before 0 older rfl
              refine ⟨?_, address⟩
              rw [epoch_publish coordinate (by omega)]
              omega
          | succ place =>
              obtain ⟨count, address⟩ := before place record here
              exact ⟨by omega, address⟩

theorem Chained.unique (chained : Chained records) (last : records.getLast? = some first)
    (few : first.epoch.toNat + records.length ≤ UInt64.size) {one other : PeerRecord}
    (here : one ∈ records) (there : other ∈ records) (epoch : one.epoch = other.epoch) :
    one = other := by
  obtain ⟨place, here⟩ := List.mem_iff_getElem?.mp here
  obtain ⟨spot, there⟩ := List.mem_iff_getElem?.mp there
  have count := (chained.place last few here).1
  have same := (chained.place last few there).1
  rw [epoch] at count
  have equal : place = spot := by omega
  subst equal
  exact Option.some.inj (here.symm.trans there)

/-- The newest record has the highest epoch. -/
theorem Chained.le_head (chained : Chained records) (last : records.getLast? = some first)
    (few : first.epoch.toNat + records.length ≤ UInt64.size) {newest record : PeerRecord}
    (head : records.head? = some newest) (member : record ∈ records) :
    record.epoch ≤ newest.epoch := by
  obtain ⟨place, here⟩ := List.mem_iff_getElem?.mp member
  rw [List.head?_eq_getElem?] at head
  have count := (chained.place last few here).1
  have most := (chained.place last few head).1
  exact UInt64.le_iff_toNat_le.mpr (by omega)

end Histories

/-- A peer whose record can be found is a node. -/
theorem Genuine.host {record : PeerRecord} (begins : Begins timing start)
    (historic : Historic start.chronicle now.chronicle)
    (genuine : Genuine now.chronicle record) :
    ∃ host, (start.nodes host).record.id = record.id := by
  obtain ⟨told, member, _⟩ := genuine
  by_contra stranger
  have none : start.chronicle.advertised record.id = [] :=
    begins.strangers record.id fun host same => stranger ⟨host, same⟩
  have empty := historic.first record.id
  rw [none, List.getLast?_nil, List.getLast?_eq_none_iff] at empty
  rw [empty] at member
  cases member

/-- The records of nodes without flows and scopes come through the wire as they were. -/
theorem Genuine.attested {record : PeerRecord} (begins : Begins timing start)
    (unscoped : ∀ host, (start.nodes host).record.unscoped = (start.nodes host).record)
    (sound : Sound timing start.chronicle now)
    (ids : ∀ host, (now.nodes host).record.id = (start.nodes host).record.id)
    (few : ∀ host, (start.nodes host).record.epoch.toNat +
      (now.chronicle.advertised (start.nodes host).record.id).length ≤ UInt64.size)
    (genuine : Genuine now.chronicle record) : Attested now record := by
  obtain ⟨host, named⟩ := genuine.host begins sound.historic
  have chained := sound.historic.chained record.id
  have last := sound.historic.first record.id
  rw [← named, begins.advertised host, List.getLast?_singleton, named] at last
  have few := few host
  rw [named] at few
  have current := (sound.nodes host).own
  rw [ids host, named] at current
  obtain ⟨told, member, same⟩ := genuine
  obtain ⟨place, here⟩ := List.mem_iff_getElem?.mp member
  have address := (chained.place last few here).2
  have scope := congrArg PeerRecord.address (unscoped host)
  change (start.nodes host).record.address.unscoped = _ at scope
  have seen : told.unscoped = told := by
    rw [PeerRecord.unscoped, address, scope, ← address]
  have equal : record = told := by
    rcases same with same | same
    · exact same
    · rw [same, seen]
  subst equal
  exact ⟨⟨host, (ids host).trans named, current, chained.le_head last few current member⟩,
    member, fun other advertised epoch => chained.unique last few advertised member epoch⟩

/-- Whatever nodes do, every record that can be found anywhere is one that its peer has advertised,
of no higher epoch than its current one, and two records of one peer and one epoch are the same. The
addresses of the nodes have neither flow nor scope, and no node has published more coordinates than
there were epochs left: what it has advertised is its first record and one for each coordinate. -/
theorem found_attested (begins : Begins timing start)
    (unscoped : ∀ host, (start.nodes host).record.unscoped = (start.nodes host).record)
    (run : Run timing start now)
    (few : ∀ host, (start.nodes host).record.epoch.toNat +
      (now.chronicle.advertised (start.nodes host).record.id).length ≤ UInt64.size) :
    (∀ record, Found now record → Attested now record) ∧
      ∀ first second, Found now first → Found now second → first.id = second.id →
        first.epoch = second.epoch → first = second := by
  obtain ⟨sound, _, ids⟩ := begins.sound.run run
  have attested (record : PeerRecord) (found : Found now record) : Attested now record :=
    (sound.genuine found).attested begins unscoped sound ids few
  refine ⟨attested, fun first second found also id epoch => ?_⟩
  have advertised := (attested second also).advertised
  rw [← id] at advertised
  exact ((attested first found).unique second advertised epoch.symm).symm

/-- A record that a node got from a request of the other one. -/
theorem found_attested_pair : ∃ now record, Run .free pair now ∧
    (∃ engine ∈ (now.nodes 1).engines, ∃ copy ∈ engine.cache.entries, copy.record = record) ∧
    record.id = (now.nodes 0).record.id ∧ Attested now record := by
  have played : (pair.play .free acquaint).any (fun now => decide
      ((∃ engine ∈ (now.nodes 1).engines, ∃ copy ∈ engine.cache.entries,
        copy.record.id = (now.nodes 0).record.id) ∧
      ∀ host : Fin 2, (pair.nodes host).record.epoch.toNat +
        (now.chronicle.advertised (pair.nodes host).record.id).length ≤ UInt64.size)) := by
    decide +kernel
  obtain ⟨now, run, facts⟩ := Option.any_eq_true _ _ |>.mp played
  obtain ⟨⟨engine, runs, copy, held, named⟩, few⟩ := of_decide_eq_true facts
  have begins := begins_pair .free fun _ shared => by cases shared
  have attested := (found_attested begins (by decide) (run_play run) few).1 copy.record
    (.cached runs held)
  exact ⟨now, copy.record, run_play run, ⟨engine, runs, copy, held, rfl⟩, named, attested⟩

end Overlay.Swarm
