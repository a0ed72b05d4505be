import Overlay.PeerCache.Sampling
import Overlay.Proofs.Chance
import Overlay.Proofs.PeerCache.Merge

/-!
Where the entries of a cache come from: whatever an operation leaves in a cache was there before or
was handed to the operation, and what a sweep leaves is not over yet.
-/

set_option autoImplicit false

namespace Overlay.PeerCache

open Chance

variable (cache : PeerCache)

theorem giveUp_sublist (eviction : Eviction) (protect : Option PeerId) (excess : Nat)
    (entries : List Entry) :
    (giveUp eviction protect excess entries).Ensures (·.Sublist entries) := by
  induction excess generalizing entries with
  | zero => exact (ensures_pure _ _).mpr (List.Sublist.refl entries)
  | succ excess ih =>
      refine Ensures.bind (ensures_true _) fun found _ => ?_
      cases found with
      | none => exact (ensures_pure _ _).mpr (List.Sublist.refl entries)
      | some place =>
          refine (ih (entries.eraseIdx place)).mono fun kept part => ?_
          exact part.trans (List.eraseIdx_sublist entries place)

theorem trim_sublist (limit : Nat) (protect : Option PeerId) :
    (cache.trim limit protect).Ensures (·.entries.Sublist cache.entries) := by
  refine Ensures.bind (giveUp_sublist _ _ _ cache.entries) fun kept part => ?_
  exact (ensures_pure _ _).mpr part

/-- Nobody is given up where the limit is kept. -/
theorem trim_of_fits {cache : PeerCache} {limit : Nat} (fits : cache.size ≤ limit)
    (protect : Option PeerId) : cache.trim limit protect = pure cache := by
  rw [trim, Nat.sub_eq_zero_of_le fits]
  rfl

/-- A peer that is news goes to the end where there is room, and nobody has to go for it. -/
theorem add_news {cache : PeerCache} (entry : Entry) (foreign : entry.id ≠ cache.owner)
    (absent : entry.id ∉ ids cache.entries) (room : cache.size < cache.capacity) :
    (cache.add entry).Ensures fun added =>
      added.2 = { cache with entries := cache.entries ++ [entry] } := by
  have fits : ({ cache with entries := cache.entries ++ [entry] } : PeerCache).size ≤
      cache.capacity := by
    rw [size, List.length_append]
    exact room
  simp only [add, if_neg foreign, upsert_absent absent, trim_of_fits fits]
  exact (ensures_pure _ _).mpr rfl

theorem add_origin (entry : Entry) :
    (cache.add entry).Ensures fun added =>
      ∀ copy ∈ added.2.entries, copy = entry ∨ copy ∈ cache.entries := by
  rw [add]
  split
  · exact (ensures_pure _ _).mpr fun copy held => Or.inr held
  · refine Ensures.bind (trim_sublist _ _ _) fun trimmed part => ?_
    refine (ensures_pure _ _).mpr fun copy held => ?_
    exact mem_of_mem_upsert (part.subset held)

theorem cleanup_origin (now : Timestamp) :
    (cache.cleanup now).Ensures fun after =>
      ∀ copy ∈ after.entries, copy ∈ cache.entries ∧ now < copy.expiresAt := by
  refine (trim_sublist _ _ _).mono fun after part copy held => ?_
  obtain ⟨stored, live⟩ := mem_liveView (part.subset held)
  exact ⟨stored, (isLive_iff.mp live).2.1⟩

theorem addAll_origin (now : Timestamp) (incoming : List Entry) :
    (cache.addAll now incoming).Ensures fun after => ∀ copy ∈ after.entries,
      (copy ∈ incoming ∨ copy ∈ cache.entries) ∧ now < copy.expiresAt := by
  refine (cleanup_origin _ now).mono fun after origin copy held => ?_
  obtain ⟨merged, live⟩ := origin copy held
  refine ⟨(mem_of_mem_merge merged).imp_left fun came => ?_, live⟩
  exact List.mem_of_mem_filter came

theorem replace_origin (entry : Entry) (limit : Nat) :
    (cache.replace entry limit).Ensures fun after =>
      ∀ copy ∈ after.entries, copy = entry ∨ copy ∈ cache.entries := by
  rw [replace]
  split
  · exact (ensures_pure _ _).mpr fun copy held => Or.inr held
  · refine (trim_sublist _ _ _).mono fun after part copy held => ?_
    exact mem_of_mem_upsert (part.subset held)

theorem sample_origin (count : Nat) :
    (cache.sample count).Ensures fun taken => ∀ copy ∈ taken, copy ∈ cache.entries := by
  rw [sample]
  split
  · exact (ensures_pure _ _).mpr fun copy held => held
  · refine Ensures.bind (ensures_true _) fun places _ => ?_
    refine (ensures_pure _ _).mpr fun copy taken => ?_
    obtain ⟨place, _, found⟩ := List.mem_filterMap.mp taken
    exact List.mem_of_getElem? found

theorem randomEntry_origin :
    cache.randomEntry.Ensures fun found => ∀ copy, found = some copy → copy ∈ cache.entries := by
  rw [randomEntry]
  split
  · exact (ensures_pure _ _).mpr nofun
  · refine Ensures.bind (ensures_true _) fun place _ => ?_
    exact (ensures_pure _ _).mpr fun copy found => List.mem_of_getElem? found

theorem mem_of_oldestEntry {copy : Entry} (found : cache.oldestEntry = some copy) :
    copy ∈ cache.entries := by
  obtain ⟨place, _, here⟩ := Option.bind_eq_some_iff.mp found
  exact List.mem_of_getElem? here

end Overlay.PeerCache
