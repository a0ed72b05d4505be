import Overlay.Node.Membership

/-!
What the aggregated view is made of.

Records are put into the view one after the other, and after each of them the view lists every peer
that came up once, with a record that no other record of that peer outdates (`Newest.upsert`). So it
does at the end, in whatever order the records come up (`newest_newest`).
-/

set_option autoImplicit false

namespace Overlay.Node

theorem mem_of_mem_upsertNewest {record other : PeerRecord} {records : List PeerRecord}
    (member : other ∈ upsertNewest record records) : other = record ∨ other ∈ records := by
  induction records with
  | nil => exact Or.inl (List.mem_singleton.mp member)
  | cons held rest ih =>
      rw [upsertNewest] at member
      split at member
      · rcases List.mem_cons.mp member with first | later
        · split at first
          · exact Or.inl first
          · exact Or.inr (List.mem_cons.mpr (Or.inl first))
        · exact Or.inr (List.mem_cons_of_mem held later)
      · rcases List.mem_cons.mp member with first | later
        · exact Or.inr (List.mem_cons.mpr (Or.inl first))
        · exact (ih later).imp_right (List.mem_cons_of_mem held)

theorem mem_of_mem_foldl_upsertNewest {record : PeerRecord} {records kept : List PeerRecord}
    (member : record ∈ records.foldl (fun kept record => upsertNewest record kept) kept) :
    record ∈ records ∨ record ∈ kept := by
  induction records generalizing kept with
  | nil => exact Or.inr member
  | cons first rest ih =>
      rcases ih member with later | upserted
      · exact Or.inl (List.mem_cons_of_mem first later)
      · rcases mem_of_mem_upsertNewest upserted with rfl | before
        · exact Or.inl List.mem_cons_self
        · exact Or.inr before

theorem mem_of_mem_newest {record : PeerRecord} {records : List PeerRecord}
    (member : record ∈ newest records) : record ∈ records :=
  (mem_of_mem_foldl_upsertNewest member).resolve_right List.not_mem_nil

/-- A record replaces one of the same peer, or the peer is new. -/
theorem ids_upsertNewest (record : PeerRecord) (kept : List PeerRecord) :
    (upsertNewest record kept).map (·.id) =
      if record.id ∈ kept.map (·.id) then kept.map (·.id) else kept.map (·.id) ++ [record.id] := by
  induction kept with
  | nil => rfl
  | cons held rest ih =>
      rw [upsertNewest, List.map_cons]
      by_cases same : held.id = record.id
      · have known : record.id ∈ held.id :: rest.map (·.id) := same ▸ List.mem_cons_self
        rw [if_pos same, if_pos known, List.map_cons]
        split
        · rw [same]
        · rfl
      · have behind : record.id ∈ held.id :: rest.map (·.id) ↔ record.id ∈ rest.map (·.id) :=
          List.mem_cons.trans (or_iff_right (Ne.symm same))
        rw [if_neg same, List.map_cons, ih]
        simp only [behind]
        split
        · rfl
        · rfl

/-- Of two records of one peer the later one stays if its epoch is greater, and else the earlier
one. -/
theorem mem_upsertNewest {record other : PeerRecord} {kept : List PeerRecord}
    (distinct : (kept.map (·.id)).Nodup) (member : other ∈ upsertNewest record kept) :
    (other = record ∧ ∀ held ∈ kept, held.id = record.id → held.epoch < record.epoch) ∨
      (other ∈ kept ∧ (other.id = record.id → record.epoch ≤ other.epoch)) := by
  induction kept with
  | nil => exact Or.inl ⟨List.mem_singleton.mp member, nofun⟩
  | cons held rest ih =>
      rw [List.map_cons, List.nodup_cons] at distinct
      have apart : ∀ behind ∈ rest, behind.id ≠ held.id := fun behind there same =>
        distinct.1 (same ▸ List.mem_map_of_mem there)
      rw [upsertNewest] at member
      by_cases same : held.id = record.id
      · rw [if_pos same] at member
        rcases List.mem_cons.mp member with first | later
        · by_cases older : held.epoch < record.epoch
          · rw [if_pos older] at first
            refine Or.inl ⟨first, List.forall_mem_cons.mpr ⟨fun _ => older, ?_⟩⟩
            exact fun behind there equal => absurd (equal.trans same.symm) (apart behind there)
          · rw [if_neg older] at first
            subst first
            exact Or.inr ⟨List.mem_cons_self, fun _ => UInt64.not_lt.mp older⟩
        · refine Or.inr ⟨List.mem_cons_of_mem held later, fun equal => ?_⟩
          exact absurd (equal.trans same.symm) (apart other later)
      · rw [if_neg same] at member
        rcases List.mem_cons.mp member with rfl | later
        · exact Or.inr ⟨List.mem_cons_self, fun equal => absurd equal same⟩
        · rcases ih distinct.2 later with ⟨stored, older⟩ | ⟨before, newer⟩
          · refine Or.inl ⟨stored, List.forall_mem_cons.mpr ⟨fun equal => ?_, older⟩⟩
            exact absurd equal same
          · exact Or.inr ⟨List.mem_cons_of_mem held before, newer⟩

/-- The records that are kept of those that came up: one of each peer, and no older one than any
other record of that peer. -/
structure Newest (seen kept : List PeerRecord) : Prop where
  distinct : (kept.map (·.id)).Nodup
  known : ∀ id, id ∈ kept.map (·.id) ↔ id ∈ seen.map (·.id)
  part : kept ⊆ seen
  latest : ∀ record ∈ kept, ∀ other ∈ seen, other.id = record.id → other.epoch ≤ record.epoch

theorem Newest.upsert {seen kept : List PeerRecord} (view : Newest seen kept)
    (record : PeerRecord) : Newest (seen ++ [record]) (upsertNewest record kept) where
  distinct := by
    rw [ids_upsertNewest]
    split
    · exact view.distinct
    · next fresh =>
        refine List.nodup_append.mpr ⟨view.distinct, List.pairwise_singleton _ _, ?_⟩
        rintro id known _ alone rfl
        exact fresh (List.mem_singleton.mp alone ▸ known)
  known id := by
    rw [ids_upsertNewest, List.map_append, List.mem_append, ← view.known id]
    split
    · next before =>
        refine ⟨Or.inl, fun either => either.elim (fun known => known) fun alone => ?_⟩
        exact List.mem_singleton.mp alone ▸ before
    · exact List.mem_append
  part other member := by
    refine List.mem_append.mpr ((mem_of_mem_upsertNewest member).symm.imp (view.part ·) ?_)
    exact List.mem_singleton.mpr
  latest other member := by
    refine List.forall_mem_append.mpr ?_
    rcases mem_upsertNewest view.distinct member with ⟨rfl, older⟩ | ⟨before, newer⟩
    · refine ⟨fun past came same => ?_, fun _ alone _ => ?_⟩
      · -- the record of that peer that was kept so far stands between the two
        have known := (view.known past.id).mpr (List.mem_map_of_mem came)
        obtain ⟨held, there, equal⟩ := List.mem_map.mp known
        have first := view.latest held there past came equal.symm
        exact UInt64.le_of_lt (UInt64.lt_of_le_of_lt first (older held there (equal.trans same)))
      · exact List.mem_singleton.mp alone ▸ UInt64.le_refl _
    · refine ⟨view.latest other before, fun last alone same => ?_⟩
      rw [List.mem_singleton.mp alone] at same ⊢
      exact newer same.symm

theorem Newest.foldl {seen kept : List PeerRecord} (view : Newest seen kept)
    (records : List PeerRecord) : Newest (seen ++ records)
      (records.foldl (fun kept record => upsertNewest record kept) kept) := by
  induction records generalizing seen kept with
  | nil => rwa [List.append_nil]
  | cons record rest ih =>
      rw [← List.singleton_append, ← List.append_assoc]
      exact ih (view.upsert record)

theorem newest_newest (records : List PeerRecord) : Newest records (newest records) := by
  have none : Newest [] [] := ⟨List.nodup_nil, fun _ => Iff.rfl, List.Subset.refl [], nofun⟩
  exact none.foldl records

/-- A peer that the engines know is in the cache of one of them. -/
theorem mem_of_mem_cachedNodes {node : Node} {record : PeerRecord}
    (member : record ∈ node.cachedNodes) :
    ∃ engine ∈ node.engines, ∃ copy ∈ engine.cache.entries, copy.record = record := by
  obtain ⟨engine, runs, known⟩ := List.mem_flatMap.mp (mem_of_mem_newest member)
  exact ⟨engine, runs, List.mem_map.mp known⟩

end Overlay.Node
