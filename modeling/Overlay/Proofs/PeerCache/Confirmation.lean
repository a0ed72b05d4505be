import Overlay.Proofs.PeerCache.Lateness

/-!
What becomes of a cache when a peer is confirmed.

The peer that was just met is held afterwards, once, whatever has to go for it: its new copy, unless
the one held was strictly fresher (`replace_confirms`). The others are only ever given up, and none
of them where there is room.
-/

set_option autoImplicit false

namespace Overlay.PeerCache

section Upsert

variable {entries : List Entry}

/-- Where no peer is held twice, the copies of a held one are that one copy. -/
theorem filter_of_mem (distinct : (ids entries).Nodup) {stored : Entry} (held : stored ∈ entries) :
    entries.filter (·.id = stored.id) = [stored] := by
  induction entries with
  | nil => cases held
  | cons first rest ih =>
      obtain ⟨absent, distinctRest⟩ := List.nodup_cons.mp distinct
      rcases List.mem_cons.mp held with rfl | later
      · rw [List.filter_cons_of_pos (by simp), List.filter_eq_nil_iff.mpr]
        intro other member same
        have named : other.id = stored.id := by simpa using same
        exact absent (named ▸ mem_ids_of_mem member)
      · have apart : first.id ≠ stored.id := fun same => absent (same ▸ mem_ids_of_mem later)
        rw [List.filter_cons_of_neg (by simpa using apart), ih distinctRest later]

theorem length_upsert (wins : Entry → Entry → Bool) (entry : Entry) (entries : List Entry) :
    (upsert wins entry entries).length =
      if entry.id ∈ ids entries then entries.length else entries.length + 1 := by
  have same := congrArg List.length (ids_upsert wins entry entries)
  rw [ids, List.length_map] at same
  rw [same]
  split
  · exact List.length_map _
  · simp [ids]

/-- Only copies of one peer are exchanged. -/
theorem without_upsert_self (wins : Entry → Entry → Bool) (entry : Entry) (entries : List Entry) :
    without entry.id (upsert wins entry entries) = without entry.id entries := by
  induction entries with
  | nil => simp [upsert, without]
  | cons first rest ih =>
      unfold without at ih ⊢
      by_cases same : first.id = entry.id
      · have winner : (if wins entry first then entry else first).id = entry.id := by
          split
          · rfl
          · exact same
        simp [upsert, same, winner]
      · simp [upsert, same, ih]

theorem find?_upsert (wins : Entry → Entry → Bool) (entry : Entry) (entries : List Entry) :
    (upsert wins entry entries).find? (·.id = entry.id) =
      some (match entries.find? (·.id = entry.id) with
        | some held => if wins entry held then entry else held
        | none => entry) := by
  induction entries with
  | nil => simp [upsert]
  | cons first rest ih =>
      by_cases same : first.id = entry.id
      · have winner : (if wins entry first then entry else first).id = entry.id := by
          split
          · rfl
          · exact same
        simp [upsert, same, winner]
      · simp [upsert, same, ih]

end Upsert

variable {cache : PeerCache} {entry : Entry}

/-- The copy that stands when a peer was confirmed: the new one, unless the one held is strictly
fresher. -/
def confirmed (cache : PeerCache) (entry : Entry) : Entry :=
  match cache.find? entry.id with
  | some held => if held.isNewerThan entry then held else entry
  | none => entry

theorem find?_upsert_confirms (cache : PeerCache) (entry : Entry) :
    (upsert confirms entry cache.entries).find? (·.id = entry.id) =
      some (cache.confirmed entry) := by
  rw [find?_upsert, confirmed, find?]
  cases cache.entries.find? (·.id = entry.id) with
  | none => rfl
  | some held =>
      cases fresher : held.isNewerThan entry with
      | true => simp [confirms, fresher]
      | false => simp [confirms, fresher]

/-- The number of peers once one of them was confirmed, before anybody has to go. -/
def sizeWith (cache : PeerCache) (id : PeerId) : Nat :=
  if cache.contains id then cache.size else cache.size + 1

theorem length_upsert_confirms (cache : PeerCache) (entry : Entry) :
    (upsert confirms entry cache.entries).length = cache.sizeWith entry.id := by
  have known : cache.contains entry.id ↔ entry.id ∈ ids cache.entries := by
    rw [contains, List.any_eq_true, mem_ids]
    simp
  rw [length_upsert, sizeWith, size]
  exact if_congr known.symm rfl rfl

/-- Whatever the limit and the eviction are and whatever is drawn, the peer that was confirmed is
held once, by its new copy unless the one held before was strictly fresher, and at most as many
peers are held as the limit says, one at least. The others are as they were and where they were, and
all of them are there if they are not too many. -/
theorem replace_confirms (distinct : (ids cache.entries).Nodup) (foreign : entry.id ≠ cache.owner)
    (limit : Nat) :
    (cache.replace entry limit).Ensures fun after =>
      SameFrame cache after ∧
      after.entries.filter (·.id = entry.id) = [cache.confirmed entry] ∧
      after.size = min (cache.sizeWith entry.id) (max limit 1) ∧
      (without entry.id after.entries).Sublist (without entry.id cache.entries) ∧
      (cache.sizeWith entry.id ≤ max limit 1 →
        without entry.id after.entries = without entry.id cache.entries) := by
  intro dice
  have spread := nodup_ids_upsert confirms entry distinct
  have some_stay : 0 < max limit 1 := by omega
  let grown : PeerCache := { cache with entries := upsert confirms entry cache.entries }
  have replaced : cache.replace entry limit = grown.trim (max limit 1) (some entry.id) := by
    rw [replace, if_neg foreign]
  have placed : entry.id ∈ ids grown.entries := mem_ids_upsert.mpr (Or.inl rfl)
  have trimmed := @trim_ensures (some entry.id) grown (max limit 1) spread (fun _ => some_stay) dice
  have spared := trim_spares grown spread placed some_stay dice
  rw [← replaced] at trimmed spared
  generalize (cache.replace entry limit dice).1 = after at trimmed spared
  obtain ⟨frame, part, size⟩ := trimmed
  have counted : grown.size = cache.sizeWith entry.id := length_upsert_confirms cache entry
  rw [counted] at size
  have others := part.filter (·.id != entry.id)
  change (without entry.id after.entries).Sublist (without entry.id grown.entries) at others
  rw [without_upsert_self] at others
  refine ⟨frame, ?_, size, others, fun fits => ?_⟩
  · obtain ⟨stored, held, named⟩ := mem_ids.mp spared
    have found := find?_of_mem spread (part.subset held)
    rw [named, find?_upsert_confirms] at found
    rw [Option.some.inj found, ← named]
    exact filter_of_mem (spread.sublist (part.map Entry.id)) held
  · have whole : after.entries = grown.entries := by
      refine part.eq_of_length ?_
      change after.size = grown.size
      rw [size, counted, Nat.min_eq_left fits]
    rw [whole]
    exact without_upsert_self confirms entry cache.entries

section Shrinking

/-- A cache for five that evicts the oldest. It holds four peers, of which the second is the oldest
and the third came last. -/
def assorted : PeerCache :=
  let held := fun (number : Nat) (epoch expiry : UInt64) (age : UInt32) =>
    { numbered number epoch expiry with age }
  { empty (.ofNat 0) 5 1 .oldest with
    entries := [held 1 4 50 2, held 2 0 40 9, held 3 1 30 0, held 4 2 20 5] }

/-- The oldest peer is confirmed with a staler copy, and all but two have to go. -/
theorem replace_confirms_assorted :
    let entry := numbered 2 0 30
    (ids assorted.entries).Nodup ∧ entry.id ≠ assorted.owner ∧
    (assorted.replace entry 2).Ensures fun after =>
      after.entries.filter (·.id = entry.id) = [{ numbered 2 0 40 with age := 9 }] ∧
      after.size = 2 := by
  intro entry
  have distinct : (ids assorted.entries).Nodup := by decide +kernel
  have foreign : entry.id ≠ assorted.owner := by decide +kernel
  have standing : assorted.confirmed entry = { numbered 2 0 40 with age := 9 } := by
    decide +kernel
  refine ⟨distinct, foreign, (replace_confirms distinct foreign 2).mono fun after all => ?_⟩
  obtain ⟨-, once, size, -⟩ := all
  rw [standing] at once
  exact ⟨once, size⟩

end Shrinking

end Overlay.PeerCache
