import Overlay.Proofs.Engine.Budget
import Overlay.Proofs.Peer

/-!
What an engine tells others.

A payload is a sample of the cache, with a new copy of the own node behind it. So it has no peer
twice, and as many entries as the settings ask for, or as the cache has to offer
(`payload_exact`, `exact_payloads`).
-/

set_option autoImplicit false

namespace Overlay

open Chance PeerCache

/-- Entries at different places of a cache are of different peers. -/
theorem PeerCache.nodup_ids_of_subperm {taken entries : List Entry} (part : taken.Subperm entries)
    (distinct : (ids entries).Nodup) : (ids taken).Nodup := by
  obtain ⟨among, same, part⟩ := part
  exact (same.map Entry.id).nodup_iff.mp (distinct.sublist (part.map Entry.id))

namespace Engine

/-- What an engine has to tell at a time: as many of its peers as it is to tell of, and its own node
as it is now. -/
structure Exact (engine : Engine) (own : PeerRecord) (now : Timestamp) (entries : List Entry) :
    Prop where
  length : entries.length = min (engine.settings.sendSize.toNat - 1) engine.cache.size + 1
  distinct : (ids entries).Nodup
  told : ∃ peers self, entries = peers ++ [self] ∧
    (∀ copy ∈ peers, copy ∈ engine.cache.entries) ∧ self.record = own ∧ self.age = 0 ∧
    self.expiresAt.millis.toNat =
      min (now.millis.toNat + engine.settings.entryLifetime.toNat) (UInt64.size - 1)

variable {engine : Engine} {own : PeerRecord}

theorem payload_exact (sound : WellFormed engine.cache) (named : own.id = engine.owner)
    (now : Timestamp) : (engine.payload own now).Ensures (engine.Exact own now) := by
  have sampled : (engine.cache.sample (engine.settings.sendSize.toNat - 1)).Ensures fun peers =>
      peers.length = min (engine.settings.sendSize.toNat - 1) engine.cache.size ∧
        peers.Subperm engine.cache.entries :=
    fun dice => ⟨engine.cache.sample_length _ dice, engine.cache.sample_subperm _ dice⟩
  refine sampled.bind fun peers both => (ensures_pure _ _).mpr ?_
  obtain ⟨length, part⟩ := both
  have others : ∀ copy ∈ peers, copy.id ≠ own.id := by
    intro copy told
    rw [named]
    exact sound.foreign copy (part.subset told)
  refine ⟨?_, ?_, peers, engine.fresh own now, rfl, fun copy told => part.subset told, rfl, rfl,
    Timestamp.toNat_plus _ _⟩
  · rw [List.length_append, length, List.length_singleton]
  · have behind : ids (peers ++ [engine.fresh own now]) = ids peers ++ [own.id] := List.map_append
    rw [behind]
    refine List.nodup_append.mpr
      ⟨nodup_ids_of_subperm part sound.distinct, List.pairwise_singleton _ _, ?_⟩
    intro id told other alone
    obtain ⟨copy, member, rfl⟩ := List.mem_map.mp told
    rw [List.mem_singleton.mp alone]
    exact others copy member

theorem message_exact (sound : WellFormed engine.cache) (named : own.id = engine.owner)
    (now : Timestamp) (receiver : PeerRecord) :
    engine.Tells own now receiver fun message => engine.Exact own now message.entries :=
  tells_of_message fun _ =>
    (payload_exact sound named now).bind fun _ told => (ensures_pure _ _).mpr told

/-- Whatever the source offers, a sample is as large as it was asked to be, or the whole cache where
that is not larger, it stands at different places of the cache, and it takes nine draws for each
entry at most. No order of so many places is left out: after any other draws, there are offers that
bring it. So whatever an engine tells others has so many of its peers and one entry more, the own
node as it is now, which comes last and lives as long as a new copy does; and no peer is told of
twice. -/
theorem exact_payloads {cache : PeerCache} (sound : WellFormed cache) (count : Nat) :
    ((cache.sample count).DrawsAtMost (9 * count) ∧
      (cache.sample count).Ensures fun taken => ∃ places, Places cache.size places ∧
        places.length = min count cache.size ∧
        taken.map some = places.map (cache.entries[·]?)) ∧
    (count < cache.size → ∀ places, Places cache.size places → places.length = count →
      ∀ dice : Dice, ∃ offer, (cache.sample count { dice with offer }).1.map some =
        places.map (cache.entries[·]?)) ∧
    ∀ (engine : Engine) (own : PeerRecord) (now : Timestamp) (receiver : PeerRecord),
      engine.cache = cache → own.id = cache.owner →
        engine.Tells own now receiver fun message => engine.Exact own now message.entries := by
  refine ⟨⟨cache.sample_drawsAtMost count, cache.sample_places count⟩, ?_, ?_⟩
  · intro fits places inside full dice
    obtain ⟨offer, dictates⟩ := dice.exists_dictates places
    exact ⟨offer, sample_dictated dictates inside full fits⟩
  · rintro engine own now receiver rfl named
    exact message_exact sound named now receiver

theorem exact_payloads_burdened :
    let engine := burdened .brisk
    WellFormed engine.cache ∧ engine.cache.size = 2 ∧ Places 2 [1] ∧
    (∃ offer, (engine.cache.sample 1 { Dice.last with offer }).1.map some =
      [engine.cache.entries[1]?]) ∧
    engine.Tells (.numbered 0) ⟨0⟩ (.numbered 3) fun message =>
      engine.Exact (.numbered 0) ⟨0⟩ message.entries := by
  intro engine
  have reached : Reached (fun _ => True) (fun _ => True) .brisk (.ofNat 0) engine :=
    reached_burdened .brisk trivial trivial
  have sound := reached.sound.cache
  have size : engine.cache.size = 2 := by decide +kernel
  have places : Places 2 [1] := ⟨by decide, by decide⟩
  have exact_one := exact_payloads sound 1
  refine ⟨sound, size, places, ?_, ?_⟩
  · exact exact_one.2.1 (by rw [size]; decide) [1] (by rwa [size]) rfl Dice.last
  · exact exact_one.2.2 engine _ _ _ rfl rfl

end Engine

end Overlay
