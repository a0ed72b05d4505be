import Overlay.Proofs.PeerCache.Freshness

/-!
What can become of a cache.

Whatever is done to a cache that was empty, and with whatever limits, it holds one copy of a peer at
most, and none of its owner (`Reached.distinct`, `Reached.foreign`). Only its size depends on the
limits.
-/

set_option autoImplicit false

namespace Overlay.PeerCache

/-- What a cache that was empty can come to, whatever is drawn for each operation. -/
inductive Reached : PeerCache → Prop
  | empty (owner : PeerId) (capacity : Nat) (version : UInt32) (eviction : Eviction) :
      Reached (empty owner capacity version eviction)
  | perform {cache : PeerCache} (reached : Reached cache) (operation : Operation) (dice : Dice) :
      Reached (operation.perform cache dice).1.2

section Foreign

variable {cache : PeerCache} (foreign : ∀ held ∈ cache.entries, held.id ≠ cache.owner)

include foreign

theorem foreign_trim_upsert {wins : Entry → Entry → Bool} {entry : Entry}
    (other : entry.id ≠ cache.owner) (limit : Nat) (protect : Option PeerId) :
    ({ cache with entries := upsert wins entry cache.entries }.trim limit protect).Ensures
      fun after => ∀ held ∈ after.entries, held.id ≠ cache.owner := by
  refine (trim_sublist _ limit protect).mono fun after part held stored => ?_
  exact foreign_upsert foreign other held (part.subset stored)

/-- No operation lets a copy of the owner in. -/
theorem perform_foreign (operation : Operation) :
    (operation.perform cache).Ensures fun answered =>
      ∀ held ∈ answered.2.entries, held.id ≠ cache.owner := by
  have swept (middle : PeerCache) (same : middle.owner = cache.owner) (now : Timestamp) :
      (middle.cleanup now).Ensures fun after => ∀ held ∈ after.entries, held.id ≠ cache.owner := by
    refine (cleanup_wellFormed middle now).mono fun after kept held stored => ?_
    have other := kept.1.foreign held stored
    rwa [kept.2.owner_eq, same] at other
  have taken (place : Nat) : ∀ held ∈ (cache.takeAt place).2.entries, held.id ≠ cache.owner :=
    fun held stored => foreign held ((List.eraseIdx_sublist cache.entries place).subset stored)
  cases operation with
  | add entry =>
      simp only [Operation.perform, add]
      split
      · exact fun _ => foreign
      · next other => exact fun dice => foreign_trim_upsert foreign other _ _ dice
  | replace entry limit =>
      simp only [Operation.perform, replace]
      split
      · exact fun _ => foreign
      · next other => exact fun dice => foreign_trim_upsert foreign other _ _ dice
  | addAll now incoming =>
      let merged : PeerCache := { cache with
        entries := merge (incoming.filter (·.id != cache.owner)) cache.entries }
      exact fun dice => swept merged rfl now dice
  | cleanup now => exact fun dice => swept cache rfl now dice
  | removeRandom =>
      simp only [Operation.perform, removeRandom]
      split
      · exact fun _ => foreign
      · exact fun _ => taken _
  | removeOldest =>
      simp only [Operation.perform, removeOldest]
      cases oldestIndex none cache.entries with
      | none => exact fun _ => foreign
      | some place => exact fun _ => taken place
  | growOlder =>
      intro dice held stored
      obtain ⟨before, there, rfl⟩ := List.mem_map.mp stored
      exact foreign before there
  | _ => exact fun _ => foreign

end Foreign

variable {cache : PeerCache}

theorem Reached.distinct (reached : Reached cache) : (ids cache.entries).Nodup := by
  induction reached with
  | empty => exact List.nodup_nil
  | perform _ operation dice distinct => exact (perform_renewed distinct operation dice).distinct

theorem Reached.foreign (reached : Reached cache) :
    ∀ entry ∈ cache.entries, entry.id ≠ cache.owner := by
  induction reached with
  | empty => intro entry impossible; cases impossible
  | @perform cache before operation dice foreign =>
      rw [(perform_renewed before.distinct operation dice).frame.owner_eq]
      exact perform_foreign foreign operation dice

end Overlay.PeerCache
