import Overlay.Proofs.PeerCache.Join
import Overlay.Proofs.PeerCache.Life

/-!
Batches of copies that are merged one after the other.

Where a merge is a join, nothing hangs on how the copies come: neither their order nor their
repetition changes how fresh a copy of each peer is held, a batch that is merged again changes
nothing, and two batches may be merged as one (`addAll_joins`). Equally fresh copies are the reason
why the order may show in what is held: the one that came first stays.
-/

set_option autoImplicit false

namespace Overlay.PeerCache

section Absorbed

variable {entries : List Entry}

/-- The copy that is held of a peer is found, as there is no other one. -/
theorem find?_of_mem (distinct : (ids entries).Nodup) {stored : Entry} (held : stored ∈ entries) :
    entries.find? (·.id = stored.id) = some stored := by
  cases found : entries.find? (·.id = stored.id) with
  | none =>
      have absent := List.find?_eq_none.mp found stored held
      simp at absent
  | some other =>
      have same : other.id = stored.id := by simpa using List.find?_some found
      have there : other ∈ entries := List.mem_of_find?_eq_some found
      rw [List.inj_on_of_nodup_map distinct there held same]

theorem find?_of_absent {id : PeerId} (absent : id ∉ ids entries) :
    entries.find? (·.id = id) = none := by
  rw [List.find?_eq_none]
  intro stored held same
  have named : stored.id = id := by simpa using same
  exact absent (named ▸ mem_ids_of_mem held)

/-- A copy of a peer is absorbed by entries that hold one that is as fresh. -/
def Absorbs (entries : List Entry) (copy : Entry) : Prop :=
  ∃ stored ∈ entries, stored.id = copy.id ∧ copy.key ≤ stored.key

theorem upsert_absorbed (distinct : (ids entries).Nodup) {entry : Entry}
    (absorbed : Absorbs entries entry) : upsert Entry.isNewerThan entry entries = entries := by
  obtain ⟨stored, held, same, fresh⟩ := absorbed
  induction entries with
  | nil => cases held
  | cons first rest ih =>
      obtain ⟨absent, distinctRest⟩ := List.nodup_cons.mp distinct
      by_cases here : first.id = entry.id
      · have meets : stored = first := by
          rcases List.mem_cons.mp held with rfl | later
          · rfl
          · have twice := mem_ids_of_mem later
            rw [same, ← here] at twice
            exact absurd twice absent
        have loses : ¬ entry.isNewerThan first := by
          rw [Entry.isNewerThan_iff, not_lt, ← meets]
          exact fresh
        rw [upsert, if_pos here, if_neg loses]
      · have later : stored ∈ rest := by
          rcases List.mem_cons.mp held with rfl | later
          · exact absurd same here
          · exact later
        rw [upsert, if_neg here, ih distinctRest later]

theorem merge_absorbed {incoming : List Entry} (distinct : (ids entries).Nodup)
    (absorbed : ∀ copy ∈ incoming, Absorbs entries copy) : merge incoming entries = entries := by
  induction incoming with
  | nil => rfl
  | cons entry incoming ih =>
      obtain ⟨first, rest⟩ := List.forall_mem_cons.mp absorbed
      rw [merge_cons, upsert_absorbed distinct first, ih rest]

theorem merge_append (first second entries : List Entry) :
    merge (first ++ second) entries = merge second (merge first entries) := List.foldl_append

end Absorbed

/-- Two joins of the same copies, however they came, hold equally fresh copies of each peer. -/
theorem Joined.find?_key {owner : PeerId} {held brought again after other : List Entry}
    (joined : Joined owner held brought after) (rejoined : Joined owner held again other)
    (same : ∀ copy, copy ∈ again ↔ copy ∈ brought) (id : PeerId) :
    (other.find? (·.id = id)).map Entry.key = (after.find? (·.id = id)).map Entry.key := by
  have present : id ∈ ids other ↔ id ∈ ids after := by
    have brought_iff : id ∈ ids again ↔ id ∈ ids brought := by
      rw [mem_ids, mem_ids]
      exact exists_congr fun copy => and_congr_left fun _ => same copy
    rw [joined.known, rejoined.known, brought_iff]
  by_cases known : id ∈ ids after
  · obtain ⟨stored, kept, named⟩ := mem_ids.mp known
    obtain ⟨restored, rekept, renamed⟩ := mem_ids.mp (present.mpr known)
    have greatest := joined.freshest stored kept
    have regreatest := rejoined.freshest restored rekept
    simp only [List.mem_append, same, renamed, ← named] at regreatest
    simp only [List.mem_append] at greatest
    have first := find?_of_mem joined.distinct kept
    have second := find?_of_mem rejoined.distinct rekept
    rw [named] at first
    rw [renamed] at second
    rw [first, second, Option.map_some, Option.map_some, regreatest.unique greatest]
  · rw [find?_of_absent known, find?_of_absent fun there => known (present.mp there)]

section Batches

variable {cache : PeerCache} {now : Timestamp} {batch more : List Entry}

/-- What is asked of a cache and of copies that are to come: nothing is over, everything is of the
version of the cache, and there is room for all the peers. -/
structure Spacious (cache : PeerCache) (now : Timestamp) (copies : List Entry) : Prop where
  live : ∀ copy ∈ cache.entries ++ copies,
    now < copy.expiresAt ∧ copy.record.version = cache.version
  room : (others cache.owner (ids (cache.entries ++ copies))).length ≤ cache.capacity

theorem Spacious.mono (spacious : Spacious cache now batch) {part : List Entry}
    (subset : part ⊆ batch) : Spacious cache now part where
  live := by
    intro copy there
    refine spacious.live copy ?_
    exact List.append_subset.mpr ⟨List.subset_append_left _ _,
      List.Subset.trans subset (List.subset_append_right _ _)⟩ there
  room := by
    refine Nat.le_trans (others_le ?_) spacious.room
    apply List.map_subset
    exact List.append_subset.mpr ⟨List.subset_append_left _ _,
      List.Subset.trans subset (List.subset_append_right _ _)⟩

/-- The cache after a batch that has room. -/
def merged (cache : PeerCache) (batch : List Entry) : PeerCache :=
  { cache with entries := merge (batch.filter (·.id != cache.owner)) cache.entries }

theorem merged_append (cache : PeerCache) (batch more : List Entry) :
    cache.merged (batch ++ more) = (cache.merged batch).merged more := by
  simp only [merged, List.filter_append, merge_append]

variable (reached : Reached cache)

include reached

theorem Reached.merged_joined (batch : List Entry) :
    Joined cache.owner cache.entries batch (cache.merged batch).entries :=
  merge_joined reached.distinct reached.foreign batch

theorem Spacious.addAll_eq (spacious : Spacious cache now batch) :
    cache.addAll now batch = pure (cache.merged batch) := by
  have room := spacious.room
  rw [ids, List.map_append] at room
  exact addAll_of_fits reached.distinct reached.foreign spacious.live room

/-- What has come in takes no more room. -/
theorem Spacious.merged (spacious : Spacious cache now (batch ++ more)) :
    Spacious (cache.merged batch) now more where
  live := by
    intro copy there
    apply spacious.live
    rcases List.mem_append.mp there with stored | comes
    · rcases mem_of_mem_merge stored with came | held
      · exact List.mem_append_right _ (List.mem_append_left _ (List.mem_of_mem_filter came))
      · exact List.mem_append_left _ held
    · exact List.mem_append_right _ (List.mem_append_right _ comes)
  room := by
    refine Nat.le_trans (others_le ?_) spacious.room
    intro id there
    simp only [ids, List.map_append, List.mem_append] at there ⊢
    rcases there with stored | comes
    · have known := ((reached.merged_joined batch).known id).mp stored
      exact known.2.imp_right Or.inl
    · exact Or.inr (Or.inr comes)

theorem merged_reached (spacious : Spacious cache now batch) : Reached (cache.merged batch) := by
  have step := reached.perform (.addAll now batch) .last
  have drawn := congrArg (fun chance : Chance PeerCache => (chance .last).1)
    (spacious.addAll_eq reached)
  have same : (Operation.perform cache (.addAll now batch) .last).1.2 = cache.merged batch := drawn
  rwa [same] at step

/-- What a batch has brought is absorbed when it comes again. -/
theorem merged_again (batch : List Entry) :
    (cache.merged batch).merged batch = cache.merged batch := by
  have joined := reached.merged_joined batch
  have absorbed : ∀ copy ∈ batch.filter (·.id != cache.owner),
      Absorbs (cache.merged batch).entries copy := by
    intro copy kept
    obtain ⟨came, other⟩ := List.mem_filter.mp kept
    exact joined.holds (List.mem_append_right _ came) (bne_iff_ne.mp other)
  have same := merge_absorbed joined.distinct absorbed
  exact congrArg (fun entries => { cache with entries }) same

/-- Where nothing is over and there is room for all, merging a batch is a join that draws nothing.
Neither the order nor the repetition of its copies changes how fresh a copy of each peer is held
then; merging it twice is merging it once, and merging two batches as one is merging them one after
the other. -/
theorem addAll_joins (spacious : Spacious cache now (batch ++ more)) :
    (∃ after, cache.addAll now batch = pure after ∧ SameFrame cache after ∧
      Joined cache.owner cache.entries batch after.entries ∧
      ∀ again, (∀ copy, copy ∈ again ↔ copy ∈ batch) →
        ∃ other, cache.addAll now again = pure other ∧
          ∀ id, (other.find? id).map Entry.key = (after.find? id).map Entry.key) ∧
    (do let once ← cache.addAll now batch; once.addAll now batch) = cache.addAll now batch ∧
    cache.addAll now (batch ++ more) =
      (do let first ← cache.addAll now batch; first.addAll now more) := by
  have part := spacious.mono (List.subset_append_left batch more)
  have first := part.addAll_eq reached
  have settled := merged_reached reached part
  refine ⟨⟨cache.merged batch, first, rfl, reached.merged_joined batch, ?_⟩, ?_, ?_⟩
  · intro again same
    have repeated : Spacious cache now again := part.mono fun copy came => (same copy).mp came
    refine ⟨cache.merged again, repeated.addAll_eq reached, fun id => ?_⟩
    exact (reached.merged_joined batch).find?_key (reached.merged_joined again) same id
  · have twice : Spacious cache now (batch ++ batch) :=
      part.mono (List.append_subset.mpr ⟨List.Subset.refl _, List.Subset.refl _⟩)
    rw [first, pure_bind, (twice.merged reached).addAll_eq settled, merged_again reached]
  · rw [first, pure_bind, spacious.addAll_eq reached, merged_append,
      (spacious.merged reached).addAll_eq settled]

end Batches

section Overlap

/-- A copy of a numbered peer. -/
def numbered (number : Nat) (epoch expiry : UInt64) : Entry :=
  .fresh { PeerRecord.fresh (.ofNat number) (.ofNumber number) "cluster" with epoch } ⟨0⟩ expiry

/-- A cache for four that holds two peers. -/
def halfFull : PeerCache :=
  (Operation.perform (empty (.ofNat 0) 4 1 .random)
    (.addAll ⟨5⟩ [numbered 1 1 50, numbered 2 3 40]) .last).1.2

/-- Equally fresh, staler and fresher copies, repeated ones and one of the owner. -/
def overlap : List Entry :=
  [numbered 1 1 50, numbered 2 2 90, numbered 3 0 60, numbered 0 9 99, numbered 3 4 30,
    numbered 3 4 30]

theorem addAll_joins_overlap :
    let more := [numbered 3 4 30, numbered 4 0 20, numbered 2 7 10]
    Reached halfFull ∧ Spacious halfFull ⟨9⟩ (overlap ++ more) ∧
      (do let once ← halfFull.addAll ⟨9⟩ overlap; once.addAll ⟨9⟩ overlap) =
        halfFull.addAll ⟨9⟩ overlap ∧
      halfFull.addAll ⟨9⟩ (overlap ++ more) =
        (do let first ← halfFull.addAll ⟨9⟩ overlap; first.addAll ⟨9⟩ more) := by
  intro more
  have reached : Reached halfFull := (Reached.empty _ _ _ _).perform _ _
  have spacious : Spacious halfFull ⟨9⟩ (overlap ++ more) :=
    ⟨by decide +kernel, by decide +kernel⟩
  exact ⟨reached, spacious, (addAll_joins reached spacious).2⟩

end Overlap

end Overlay.PeerCache
