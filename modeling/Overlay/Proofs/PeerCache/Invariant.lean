import Overlay.Proofs.PeerCache.Eviction
import Overlay.Proofs.PeerCache.Operation
import Overlay.Proofs.PeerCache.Origin

/-!
What holds of a cache whenever an operation on it has returned: no copy of the owner, one copy of a
peer at most, and no more copies than its capacity.

Each operation keeps the three properties (`perform_wellFormed`), and so does every sequence of
operations that begins with an empty cache (`run_wellFormed`).
-/

set_option autoImplicit false

namespace Overlay.PeerCache

/-- The properties that a cache has between operations. -/
structure WellFormed (cache : PeerCache) : Prop where
  foreign : ∀ entry ∈ cache.entries, entry.id ≠ cache.owner
  distinct : (ids cache.entries).Nodup
  bounded : cache.size ≤ cache.capacity

theorem empty_wellFormed (owner : PeerId) (capacity : Nat) (version : UInt32)
    (eviction : Eviction) : WellFormed (empty owner capacity version eviction) :=
  ⟨nofun, List.nodup_nil, Nat.zero_le capacity⟩

/-- A cache with fewer of its entries is still well-formed. -/
theorem WellFormed.of_sublist {cache : PeerCache} {entries : List Entry} (sound : WellFormed cache)
    (part : entries.Sublist cache.entries) : WellFormed { cache with entries } where
  foreign := fun entry member => sound.foreign entry (part.subset member)
  distinct := sound.distinct.sublist (part.map Entry.id)
  bounded := Nat.le_trans part.length_le sound.bounded

/-- Nothing about a cache has changed but its entries. -/
def SameFrame (before after : PeerCache) : Prop := after = { before with entries := after.entries }

theorem SameFrame.refl (cache : PeerCache) : SameFrame cache cache := rfl

theorem SameFrame.trans {first second third : PeerCache} (before : SameFrame first second)
    (after : SameFrame second third) : SameFrame first third := by
  rw [SameFrame] at *
  rw [after, before]

theorem SameFrame.owner_eq {before after : PeerCache} (same : SameFrame before after) :
    after.owner = before.owner := by rw [same]

theorem SameFrame.capacity_eq {before after : PeerCache} (same : SameFrame before after) :
    after.capacity = before.capacity := by rw [same]

theorem SameFrame.version_eq {before after : PeerCache} (same : SameFrame before after) :
    after.version = before.version := by rw [same]

theorem SameFrame.isLive_eq {before after : PeerCache} (same : SameFrame before after) :
    after.isLive = before.isLive := by rw [same]; rfl

theorem trim_frame (cache : PeerCache) (limit : Nat) (protect : Option PeerId) :
    (cache.trim limit protect).Ensures (SameFrame cache) :=
  (Chance.ensures_true _).bind fun _ _ => (Chance.ensures_pure _ _).mpr rfl

theorem add_frame (cache : PeerCache) (entry : Entry) :
    (cache.add entry).Ensures fun answered => SameFrame cache answered.2 := by
  rw [add]
  split
  · exact (Chance.ensures_pure _ _).mpr (.refl cache)
  · exact (trim_frame _ _ _).bind fun _ same => (Chance.ensures_pure _ _).mpr same

/-- Trimming restores the bound, whatever else was right before. -/
theorem trim_wellFormed {cache : PeerCache} {limit : Nat} {protect : Option PeerId}
    (foreign : ∀ entry ∈ cache.entries, entry.id ≠ cache.owner)
    (distinct : (ids cache.entries).Nodup) (within : limit ≤ cache.capacity)
    (spare : protect.isSome → 0 < limit) :
    (cache.trim limit protect).Ensures fun after =>
      WellFormed after ∧ SameFrame cache after := by
  refine (trim_ensures cache limit distinct spare).mono ?_
  rintro after ⟨frame, part, size⟩
  refine ⟨⟨fun entry member => ?_, distinct.sublist (part.map Entry.id), ?_⟩, frame⟩
  · rw [SameFrame.owner_eq frame]
    exact foreign entry (part.subset member)
  · rw [SameFrame.capacity_eq frame, size]
    exact Nat.le_trans (Nat.min_le_right _ _) within

theorem foreign_upsert {owner : PeerId} {wins : Entry → Entry → Bool} {entry : Entry}
    {entries : List Entry} (foreign : ∀ held ∈ entries, held.id ≠ owner)
    (other : entry.id ≠ owner) :
    ∀ held ∈ upsert wins entry entries, held.id ≠ owner := by
  intro held member
  rcases mem_of_mem_upsert member with rfl | before
  · exact other
  · exact foreign held before

theorem cleanup_wellFormed (cache : PeerCache) (now : Timestamp) :
    (cache.cleanup now).Ensures fun after => WellFormed after ∧ SameFrame cache after :=
  trim_wellFormed (fun _ member => (isLive_iff.mp (mem_liveView member).2).1) nodup_ids_liveView
    (Nat.le_refl _) nofun

theorem addAll_wellFormed (cache : PeerCache) (now : Timestamp) (incoming : List Entry) :
    (cache.addAll now incoming).Ensures fun after => WellFormed after ∧ SameFrame cache after :=
  cleanup_wellFormed _ now

/-- What a merge leaves is live, by the owner and the version that the cache has. -/
theorem addAll_live (cache : PeerCache) (now : Timestamp) (incoming : List Entry) :
    (cache.addAll now incoming).Ensures fun after =>
      SameFrame cache after ∧ ∀ copy ∈ after.entries, cache.isLive now copy := by
  intro dice
  refine ⟨(addAll_wellFormed cache now incoming dice).2, fun copy held => ?_⟩
  exact (mem_liveView ((trim_sublist _ _ _ dice).subset held)).2

section Preservation

variable {cache : PeerCache} (sound : WellFormed cache)

include sound

theorem add_wellFormed (entry : Entry) :
    (cache.add entry).Ensures fun answered =>
      WellFormed answered.2 ∧ SameFrame cache answered.2 := by
  rw [add]
  split
  · exact (Chance.ensures_pure _ _).mpr ⟨sound, .refl cache⟩
  · next other =>
      refine (trim_wellFormed (foreign_upsert sound.foreign other)
        (nodup_ids_upsert _ entry sound.distinct) (Nat.le_refl _) (by simp)).bind ?_
      exact fun after kept => (Chance.ensures_pure _ _).mpr kept

theorem replace_wellFormed (entry : Entry) {limit : Nat} (positive : 1 ≤ limit)
    (within : limit ≤ cache.capacity) :
    (cache.replace entry limit).Ensures fun after =>
      WellFormed after ∧ SameFrame cache after := by
  rw [replace]
  split
  · exact (Chance.ensures_pure _ _).mpr ⟨sound, .refl cache⟩
  · next other =>
      rw [Nat.max_eq_left positive]
      exact trim_wellFormed (foreign_upsert sound.foreign other)
        (nodup_ids_upsert _ entry sound.distinct) within fun _ => positive

theorem growOlder_wellFormed : WellFormed cache.growOlder where
  foreign := by
    intro entry member
    obtain ⟨held, before, rfl⟩ := List.mem_map.mp member
    exact sound.foreign held before
  distinct := by
    change (ids (cache.entries.map Entry.older)).Nodup
    rw [ids, List.map_map]
    exact sound.distinct
  bounded := by
    change (cache.entries.map Entry.older).length ≤ cache.capacity
    rw [List.length_map]
    exact sound.bounded

theorem takeAt_wellFormed (place : Nat) : WellFormed (cache.takeAt place).2 :=
  sound.of_sublist (List.eraseIdx_sublist cache.entries place)

/-- Every operation keeps a cache well-formed, and changes nothing but its entries. -/
theorem perform_wellFormed {operation : Operation}
    (admissible : operation.Admissible cache.capacity) :
    (operation.perform cache).Ensures fun answered =>
      WellFormed answered.2 ∧ SameFrame cache answered.2 := by
  cases operation with
  | add entry =>
      exact (add_wellFormed sound entry).bind fun _ kept => (Chance.ensures_pure _ _).mpr kept
  | addAll now incoming =>
      exact (addAll_wellFormed cache now incoming).bind fun _ kept =>
        (Chance.ensures_pure _ _).mpr kept
  | replace entry limit =>
      exact (replace_wellFormed sound entry admissible.1 admissible.2).bind fun _ kept =>
        (Chance.ensures_pure _ _).mpr kept
  | removeRandom =>
      rw [Operation.perform, removeRandom]
      split
      · exact (Chance.ensures_pure _ _).mpr ⟨sound, .refl cache⟩
      · exact fun dice => ⟨takeAt_wellFormed sound _, rfl⟩
  | removeOldest =>
      rw [Operation.perform, removeOldest]
      cases oldestIndex none cache.entries with
      | none => exact (Chance.ensures_pure _ _).mpr ⟨sound, .refl cache⟩
      | some place => exact (Chance.ensures_pure _ _).mpr ⟨takeAt_wellFormed sound place, rfl⟩
  | cleanup now =>
      exact (cleanup_wellFormed cache now).bind fun _ kept => (Chance.ensures_pure _ _).mpr kept
  | growOlder => exact (Chance.ensures_pure _ _).mpr ⟨growOlder_wellFormed sound, rfl⟩
  | _ => exact fun dice => ⟨sound, .refl cache⟩

end Preservation

section Replacement

variable {cache : PeerCache} (distinct : (ids cache.entries).Nodup)

include distinct

/-- Whatever the capacity of a cache is, replacing leaves no more than the limit, one at least. -/
theorem replace_bounded {limit : Nat} (few : cache.size ≤ max limit 1) (entry : Entry) :
    (cache.replace entry limit).Ensures fun after =>
      SameFrame cache after ∧ (ids after.entries).Nodup ∧ after.size ≤ max limit 1 := by
  rw [replace]
  split
  · exact (Chance.ensures_pure _ _).mpr ⟨.refl cache, distinct, few⟩
  · have upserted := nodup_ids_upsert confirms entry distinct
    refine (trim_ensures _ _ upserted fun _ => ?_).mono fun after trimmed => ?_
    · omega
    · obtain ⟨frame, part, size⟩ := trimmed
      refine ⟨frame, upserted.sublist (part.map Entry.id), ?_⟩
      rw [size]
      exact Nat.min_le_right _ _

/-- The peer that was confirmed is there afterwards. -/
theorem replace_keeps {entry : Entry} (foreign : entry.id ≠ cache.owner) (limit : Nat) :
    (cache.replace entry limit).Ensures fun after => entry.id ∈ ids after.entries := by
  rw [replace, if_neg foreign]
  refine trim_spares _ (nodup_ids_upsert confirms entry distinct) ?_ (by omega)
  exact mem_ids_upsert.mpr (Or.inl rfl)

end Replacement

/-- Looking at a cache leaves it as it is. -/
theorem perform_reading {cache : PeerCache} {operation : Operation}
    (reading : operation.isReading) :
    (operation.perform cache).Ensures fun answered => answered.2 = cache := by
  cases operation with
  | sample | randomEntry | oldestEntry | contains | size | entries | records =>
      exact fun dice => rfl
  | _ => cases reading

theorem run_preserves {cache : PeerCache} (sound : WellFormed cache) {operations : List Operation}
    (admissible : ∀ operation ∈ operations, operation.Admissible cache.capacity) :
    (Operation.run cache operations).Ensures fun after =>
      WellFormed after ∧ SameFrame cache after := by
  induction operations generalizing cache with
  | nil => exact (Chance.ensures_pure _ _).mpr ⟨sound, .refl cache⟩
  | cons operation rest ih =>
      refine (perform_wellFormed sound (admissible operation List.mem_cons_self)).bind ?_
      rintro ⟨_, middle⟩ ⟨soundMiddle, frame⟩
      refine (ih soundMiddle fun next member => ?_).mono fun after kept =>
        ⟨kept.1, frame.trans kept.2⟩
      rw [frame.capacity_eq]
      exact admissible next (List.mem_cons_of_mem operation member)

/-- After any operations on a cache that was empty, whatever is drawn, the cache holds no copy of
its owner, no two copies of one peer and no more copies than its capacity, and looking at it does
not change it. -/
theorem run_wellFormed (owner : PeerId) (capacity : Nat) (version : UInt32) (eviction : Eviction)
    (operations : List Operation)
    (admissible : ∀ operation ∈ operations, operation.Admissible capacity) :
    (Operation.run (empty owner capacity version eviction) operations).Ensures fun cache =>
      (∀ entry ∈ cache.entries, entry.id ≠ owner) ∧ (ids cache.entries).Nodup ∧
        cache.entries.length ≤ capacity ∧
        ∀ operation : Operation, operation.isReading →
          (operation.perform cache).Ensures fun answered => answered.2 = cache := by
  refine (run_preserves (empty_wellFormed owner capacity version eviction) admissible).mono ?_
  rintro cache ⟨sound, frame⟩
  have bounded := sound.bounded
  rw [frame.capacity_eq] at bounded
  refine ⟨fun entry member => ?_, sound.distinct, bounded, fun _ => perform_reading⟩
  have foreign := sound.foreign entry member
  rwa [frame.owner_eq] at foreign

/-- Operations that crowd a cache for two, with copies of its owner and repeated ones. -/
def crowding : List Operation :=
  let copy := fun number =>
    Entry.fresh (.fresh (.ofNat number) (.ofNumber number) "cluster") ⟨0⟩ 1000
  [.add (copy 0), .addAll ⟨5⟩ [copy 1, copy 2, copy 1, copy 0, copy 3], .sample 1, .growOlder,
    .replace (copy 4) 1, .addAll ⟨6⟩ [copy 4, copy 5, copy 6], .removeOldest, .cleanup ⟨1000⟩]

theorem run_wellFormed_crowding :
    (∀ operation ∈ crowding, operation.Admissible 2) ∧
    (Operation.run (empty (.ofNat 0) 2 1 .oldest) crowding).Ensures fun cache =>
      (∀ entry ∈ cache.entries, entry.id ≠ .ofNat 0) ∧ (ids cache.entries).Nodup ∧
        cache.entries.length ≤ 2 ∧
        ∀ operation : Operation, operation.isReading →
          (operation.perform cache).Ensures fun answered => answered.2 = cache := by
  have admissible : ∀ operation ∈ crowding, operation.Admissible 2 := by
    simp [crowding, Operation.Admissible]
  exact ⟨admissible, run_wellFormed _ _ _ _ _ admissible⟩

end Overlay.PeerCache
