import Overlay.Proofs.PeerCache.Freshness
import Overlay.Proofs.Wire.RoundTrip
import Mathlib.Data.List.Dedup
import Mathlib.Order.Bounds.Basic

/-!
Merging without loss.

Where nothing has expired, every copy is of the version of the cache and there is room for
everybody, a merge is a join: the cache then holds whom it held and who came, but for its owner, and
of each peer a copy that is as fresh as the freshest one there was (`addAll_joined`).
-/

set_option autoImplicit false

namespace Overlay.PeerCache

variable {entries incoming : List Entry}

/-- Copies of different peers that are new to a cache are put behind those that it holds. -/
theorem merge_distinct (distinct : (ids (entries ++ incoming)).Nodup) :
    merge incoming entries = entries ++ incoming := by
  induction incoming generalizing entries with
  | nil => rw [merge_nil, List.append_nil]
  | cons entry incoming ih =>
      have absent : entry.id ∉ ids entries := by
        rw [ids, List.map_append] at distinct
        intro held
        exact (List.disjoint_of_nodup_append distinct) held List.mem_cons_self
      have split : entries ++ entry :: incoming = entries ++ [entry] ++ incoming := by
        rw [List.append_assoc, List.singleton_append]
      rw [split] at distinct ⊢
      rw [merge_cons, upsert_absent absent, ih distinct]

/-- A sweep leaves everything in its place where nothing is to be swept. -/
theorem liveView_eq {cache : PeerCache} {now : Timestamp} (distinct : (ids cache.entries).Nodup)
    (live : ∀ entry ∈ cache.entries, cache.isLive now entry) :
    cache.liveView now = cache.entries := by
  rw [liveView, List.filter_eq_self.mpr live, merge_distinct, List.nil_append]
  rwa [List.nil_append]

/-- A list of entries is the join of what a cache held and what it was brought: one copy of each
peer but the owner, as fresh as the freshest copy of that peer there was. -/
structure Joined (owner : PeerId) (held brought after : List Entry) : Prop where
  distinct : (ids after).Nodup
  known : ∀ id, id ∈ ids after ↔ id ≠ owner ∧ (id ∈ ids held ∨ id ∈ ids brought)
  freshest : ∀ stored ∈ after,
    IsGreatest {key | ∃ copy ∈ held ++ brought, copy.id = stored.id ∧ copy.key = key} stored.key

/-- The different peers among some, without the owner of a cache. -/
def others (owner : PeerId) (peers : List PeerId) : List PeerId :=
  (peers.filter (· != owner)).dedup

theorem mem_others {owner id : PeerId} {peers : List PeerId} :
    id ∈ others owner peers ↔ id ≠ owner ∧ id ∈ peers := by
  rw [others, List.mem_dedup, List.mem_filter, bne_iff_ne, and_comm]

theorem others_le {owner : PeerId} {some all : List PeerId} (subset : some ⊆ all) :
    (others owner some).length ≤ (others owner all).length := by
  have part : others owner some ⊆ others owner all := by
    intro id member
    obtain ⟨other, there⟩ := mem_others.mp member
    exact mem_others.mpr ⟨other, subset there⟩
  exact (List.nodup_dedup _).length_le_of_subset part

/-- There is room for as many peers as there are different ones. -/
theorem Joined.fits {owner : PeerId} {held brought after : List Entry} {capacity : Nat}
    (joined : Joined owner held brought after)
    (room : (others owner (ids held ++ ids brought)).length ≤ capacity) :
    after.length ≤ capacity := by
  have part : ids after ⊆ others owner (ids held ++ ids brought) := by
    intro id stored
    obtain ⟨other, known⟩ := (joined.known id).mp stored
    exact mem_others.mpr ⟨other, List.mem_append.mpr known⟩
  calc
    after.length = (ids after).length := (List.length_map _).symm
    _ ≤ (others owner (ids held ++ ids brought)).length :=
      joined.distinct.length_le_of_subset part
    _ ≤ capacity := room

/-- What a join looks at in a copy. -/
def mark (entry : Entry) : PeerId × ℕ ×ₗ ℕ := (entry.id, entry.key)

theorem mark_unscoped (entry : Entry) : mark entry.unscoped = mark entry := rfl

theorem mark_older (entry : Entry) : mark entry.older = mark entry := rfl

theorem map_mark_map {entries : List Entry} {change : Entry → Entry}
    (same : ∀ entry, mark (change entry) = mark entry) :
    (entries.map change).map mark = entries.map mark := by
  rw [List.map_map]
  exact List.map_congr_left fun entry _ => same entry

theorem ids_eq_of_mark_eq {left right : List Entry} (same : left.map mark = right.map mark) :
    ids left = ids right := by
  have first := congrArg (List.map Prod.fst) same
  rw [List.map_map, List.map_map] at first
  exact first

/-- A join does not depend on what else there is to a copy. -/
theorem Joined.congr {owner : PeerId} {held brought after : List Entry}
    (joined : Joined owner held brought after) {held' brought' : List Entry}
    (sameHeld : held'.map mark = held.map mark)
    (sameBrought : brought'.map mark = brought.map mark) :
    Joined owner held' brought' after where
  distinct := joined.distinct
  known id := by
    rw [ids_eq_of_mark_eq sameHeld, ids_eq_of_mark_eq sameBrought]
    exact joined.known id
  freshest stored kept := by
    have marks : (held' ++ brought').map mark = (held ++ brought).map mark := by
      rw [List.map_append, List.map_append, sameHeld, sameBrought]
    have keys (entries : List Entry) : {key | ∃ copy ∈ entries, copy.id = stored.id ∧
        copy.key = key} = {key | (stored.id, key) ∈ entries.map mark} := by
      ext key
      rw [Set.mem_ofPred_eq, Set.mem_ofPred_eq, List.mem_map]
      exact exists_congr fun copy => and_congr_right fun _ => Prod.mk_inj.symm
    have greatest := joined.freshest stored kept
    rwa [keys, ← marks, ← keys] at greatest

/-- Of every peer that comes up, a copy is held afterwards that is as fresh as any. -/
theorem Joined.holds {owner : PeerId} {held brought after : List Entry}
    (joined : Joined owner held brought after) {copy : Entry} (there : copy ∈ held ++ brought)
    (foreign : copy.id ≠ owner) :
    ∃ stored ∈ after, stored.id = copy.id ∧ copy.key ≤ stored.key := by
  have known : copy.id ∈ ids after := by
    refine (joined.known copy.id).mpr ⟨foreign, ?_⟩
    exact (List.mem_append.mp there).imp mem_ids_of_mem mem_ids_of_mem
  obtain ⟨stored, kept, same⟩ := mem_ids.mp known
  exact ⟨stored, kept, same, (joined.freshest stored kept).2 ⟨copy, there, same.symm, rfl⟩⟩

section Joined

variable {cache : PeerCache} (distinct : (ids cache.entries).Nodup)
  (foreign : ∀ entry ∈ cache.entries, entry.id ≠ cache.owner)

include distinct foreign

theorem merge_joined (incoming : List Entry) :
    Joined cache.owner cache.entries incoming
      (merge (incoming.filter (·.id != cache.owner)) cache.entries) where
  distinct := nodup_ids_merge _ distinct
  known id := by
    rw [mem_ids_merge]
    constructor
    · rintro (came | held)
      · obtain ⟨copy, kept, rfl⟩ := mem_ids.mp came
        obtain ⟨brought, other⟩ := List.mem_filter.mp kept
        exact ⟨bne_iff_ne.mp other, Or.inr (mem_ids_of_mem brought)⟩
      · obtain ⟨copy, stored, rfl⟩ := mem_ids.mp held
        exact ⟨foreign copy stored, Or.inl held⟩
    · rintro ⟨other, held | came⟩
      · exact Or.inr held
      · obtain ⟨copy, brought, rfl⟩ := mem_ids.mp came
        exact Or.inl (mem_ids_of_mem (List.mem_filter.mpr ⟨brought, bne_iff_ne.mpr other⟩))
  freshest stored kept := by
    have supersedes := merge_supersedes (incoming.filter (·.id != cache.owner)) distinct
    have other : stored.id ≠ cache.owner := by
      rcases mem_of_mem_merge kept with came | held
      · exact bne_iff_ne.mp (List.mem_filter.mp came).2
      · exact foreign stored held
    constructor
    · refine ⟨stored, ?_, rfl, rfl⟩
      rcases mem_of_mem_merge kept with came | held
      · exact List.mem_append_right _ (List.mem_of_mem_filter came)
      · exact List.mem_append_left _ held
    · rintro _ ⟨copy, available, named, rfl⟩
      refine supersedes copy ?_ stored kept named.symm
      rcases List.mem_append.mp available with held | came
      · exact List.mem_append_right _ held
      · refine List.mem_append_left _ (List.mem_filter.mpr ⟨came, ?_⟩)
        rw [named]
        exact bne_iff_ne.mpr other

/-- Where nothing is to be swept and there is room for everybody, a merge draws nothing. -/
theorem addAll_of_fits {now : Timestamp} {incoming : List Entry}
    (live : ∀ copy ∈ cache.entries ++ incoming,
      now < copy.expiresAt ∧ copy.record.version = cache.version)
    (room : (others cache.owner (ids cache.entries ++ ids incoming)).length ≤ cache.capacity) :
    cache.addAll now incoming =
      pure { cache with entries := merge (incoming.filter (·.id != cache.owner)) cache.entries } := by
  have joined := merge_joined distinct foreign incoming
  let merged : PeerCache := { cache with
    entries := merge (incoming.filter (·.id != cache.owner)) cache.entries }
  have swept : merged.liveView now = merged.entries := by
    refine liveView_eq joined.distinct fun copy stored => isLive_iff.mpr ⟨?_, ?_⟩
    · exact ((joined.known copy.id).mp (mem_ids_of_mem stored)).1
    · rcases mem_of_mem_merge stored with came | held
      · exact live copy (List.mem_append_right _ (List.mem_of_mem_filter came))
      · exact live copy (List.mem_append_left _ held)
  have fits : merged.size ≤ merged.capacity := joined.fits room
  change { merged with entries := merged.liveView now }.trim merged.capacity none = _
  rw [swept]
  exact trim_of_fits fits none

/-- A merge that has to give up nobody is a join. -/
theorem addAll_joined {now : Timestamp} {incoming : List Entry}
    (live : ∀ copy ∈ cache.entries ++ incoming,
      now < copy.expiresAt ∧ copy.record.version = cache.version)
    (room : (others cache.owner (ids cache.entries ++ ids incoming)).length ≤ cache.capacity) :
    (cache.addAll now incoming).Ensures fun after =>
      SameFrame cache after ∧ Joined cache.owner cache.entries incoming after.entries := by
  rw [addAll_of_fits distinct foreign live room]
  exact (Chance.ensures_pure _ _).mpr ⟨rfl, merge_joined distinct foreign incoming⟩

end Joined

end Overlay.PeerCache
