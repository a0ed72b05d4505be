import Overlay.PeerCache.Basic
import Mathlib.Data.List.Nodup

/-!
What merging copies into a list of entries does to the entries and to the peers they are of.

Every entry of the result is one that was held or one that came in (`mem_of_mem_merge`), every peer
that was held or came in is there (`mem_ids_merge`), and no peer comes twice (`nodup_ids_merge`).
-/

set_option autoImplicit false

namespace Overlay.PeerCache

/-- The peers of entries, in order. -/
def ids (entries : List Entry) : List PeerId := entries.map Entry.id

@[simp] theorem ids_nil : ids [] = [] := rfl

@[simp] theorem ids_cons (entry : Entry) (entries : List Entry) :
    ids (entry :: entries) = entry.id :: ids entries := rfl

theorem mem_ids {id : PeerId} {entries : List Entry} :
    id ∈ ids entries ↔ ∃ entry ∈ entries, entry.id = id := List.mem_map

theorem mem_ids_of_mem {entry : Entry} {entries : List Entry} (held : entry ∈ entries) :
    entry.id ∈ ids entries := mem_ids.mpr ⟨entry, held, rfl⟩

theorem mem_of_mem_upsert {wins : Entry → Entry → Bool} {entry other : Entry}
    {entries : List Entry} (stored : other ∈ upsert wins entry entries) :
    other = entry ∨ other ∈ entries := by
  induction entries with
  | nil => exact Or.inl (List.mem_singleton.mp stored)
  | cons held rest ih =>
      simp only [upsert] at stored
      split at stored
      · rcases List.mem_cons.mp stored with first | later
        · split at first
          · exact Or.inl first
          · exact Or.inr (List.mem_cons.mpr (Or.inl first))
        · exact Or.inr (List.mem_cons_of_mem held later)
      · rcases List.mem_cons.mp stored with first | later
        · exact Or.inr (List.mem_cons.mpr (Or.inl first))
        · exact (ih later).imp_right (List.mem_cons_of_mem held)

/-- A copy of a peer that is held goes in its place, one of a new peer goes to the end. -/
theorem ids_upsert (wins : Entry → Entry → Bool) (entry : Entry) (entries : List Entry) :
    ids (upsert wins entry entries) =
      if entry.id ∈ ids entries then ids entries else ids entries ++ [entry.id] := by
  induction entries with
  | nil => simp [upsert]
  | cons held rest ih =>
      by_cases same : held.id = entry.id
      · have kept : (if wins entry held then entry else held).id = held.id := by
          split
          · exact same.symm
          · rfl
        simp [upsert, same, kept]
      · have other : entry.id ≠ held.id := fun equal => same equal.symm
        simp only [upsert, same, ↓reduceIte, ids_cons, ih, List.mem_cons, other, false_or]
        split <;> rfl

/-- A copy of a peer that is not held is stored whichever rule decides. -/
theorem upsert_absent {wins : Entry → Entry → Bool} {entry : Entry} {entries : List Entry}
    (absent : entry.id ∉ ids entries) : upsert wins entry entries = entries ++ [entry] := by
  induction entries with
  | nil => rfl
  | cons held rest ih =>
      rw [ids_cons, List.mem_cons, not_or] at absent
      rw [upsert, if_neg (Ne.symm absent.1), ih absent.2, List.cons_append]

theorem mem_ids_upsert {wins : Entry → Entry → Bool} {entry : Entry} {id : PeerId}
    {entries : List Entry} :
    id ∈ ids (upsert wins entry entries) ↔ id = entry.id ∨ id ∈ ids entries := by
  rw [ids_upsert]
  split
  · next held =>
      constructor
      · exact Or.inr
      · rintro (rfl | stored)
        · exact held
        · exact stored
  · simp [or_comm]

theorem nodup_ids_upsert (wins : Entry → Entry → Bool) (entry : Entry) {entries : List Entry}
    (distinct : (ids entries).Nodup) : (ids (upsert wins entry entries)).Nodup := by
  rw [ids_upsert]
  split
  · exact distinct
  · next absent => simpa only [List.concat_eq_append] using distinct.concat absent

@[simp] theorem merge_nil (entries : List Entry) : merge [] entries = entries := rfl

@[simp] theorem merge_cons (entry : Entry) (incoming entries : List Entry) :
    merge (entry :: incoming) entries = merge incoming (upsert Entry.isNewerThan entry entries) :=
  rfl

theorem mem_of_mem_merge {other : Entry} {incoming entries : List Entry}
    (stored : other ∈ merge incoming entries) : other ∈ incoming ∨ other ∈ entries := by
  induction incoming generalizing entries with
  | nil => exact Or.inr stored
  | cons entry incoming ih =>
      rcases ih stored with came | upserted
      · exact Or.inl (List.mem_cons_of_mem entry came)
      · rcases mem_of_mem_upsert upserted with rfl | held
        · exact Or.inl List.mem_cons_self
        · exact Or.inr held

theorem mem_ids_merge {id : PeerId} {incoming entries : List Entry} :
    id ∈ ids (merge incoming entries) ↔ id ∈ ids incoming ∨ id ∈ ids entries := by
  induction incoming generalizing entries with
  | nil => simp
  | cons entry incoming ih =>
      rw [merge_cons, ih, mem_ids_upsert, ids_cons, List.mem_cons]
      tauto

theorem nodup_ids_merge (incoming : List Entry) {entries : List Entry}
    (distinct : (ids entries).Nodup) : (ids (merge incoming entries)).Nodup := by
  induction incoming generalizing entries with
  | nil => exact distinct
  | cons entry incoming ih => exact ih (nodup_ids_upsert _ entry distinct)

variable {cache : PeerCache} {now : Timestamp}

theorem mem_liveView {entry : Entry} (stored : entry ∈ cache.liveView now) :
    entry ∈ cache.entries ∧ cache.isLive now entry := by
  rcases mem_of_mem_merge stored with kept | impossible
  · exact List.mem_filter.mp kept
  · cases impossible

theorem nodup_ids_liveView : (ids (cache.liveView now)).Nodup :=
  nodup_ids_merge _ List.nodup_nil

theorem isLive_iff {entry : Entry} : cache.isLive now entry ↔
    entry.id ≠ cache.owner ∧ now < entry.expiresAt ∧ entry.record.version = cache.version := by
  simp only [isLive, Entry.isExpired, Bool.and_eq_true, bne_iff_ne, Bool.not_eq_true',
    decide_eq_false_iff_not, beq_iff_eq, and_assoc]
  exact and_congr_right fun _ => and_congr_left fun _ => UInt64.not_le

end Overlay.PeerCache
