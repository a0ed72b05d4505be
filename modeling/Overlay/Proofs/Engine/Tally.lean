import Mathlib.Data.Finset.Card
import Mathlib.Data.List.DropRight
import Overlay.Proofs.Engine.Life

/-!
What the tally of an engine keeps in mind, and how it is told.

The payloads that are kept are a window over all that were taken in (`observed_observe`), and the
size of the network is the number of peers in it (`networkSize_eq_card`).
-/

set_option autoImplicit false

namespace Overlay

namespace Tally

/-- The window moves on by one payload. -/
theorem observed_observe {tally : Tally} {payloads : List (List PeerId)}
    (window : tally.observed = payloads.rtake observedLimit) (payload : List Entry) :
    (tally.observe payload).observed =
      (payloads ++ [payload.map Entry.id]).rtake observedLimit := by
  have length : tally.observed.length = min payloads.length observedLimit := by
    rw [window, List.rtake, List.length_drop]
    omega
  have latest : (payloads ++ [payload.map Entry.id]).rtake observedLimit =
      payloads.rtake 63 ++ [payload.map Entry.id] := List.rtake_concat_succ _ _ _
  rw [latest]
  -- The oldest payload goes just if the window is full; 63 of those before are left either way.
  simp only [observe]
  split
  · next full =>
      have many : observedLimit ≤ payloads.length := by omega
      have dropped : payloads.length - observedLimit + 1 = payloads.length - 63 := by
        simp only [observedLimit] at many ⊢
        omega
      rw [window, List.rtake, List.drop_drop, dropped, List.rtake]
  · next room =>
      have few : payloads.length ≤ 63 := by
        simp only [observedLimit] at length room
        omega
      have all : payloads.length - observedLimit = payloads.length - 63 := by
        simp only [observedLimit]
        omega
      rw [window, List.rtake, all, List.rtake]

theorem nodup_eraseDups (ids : List PeerId) : ids.eraseDups.Nodup := by
  cases ids with
  | nil => exact List.nodup_nil
  | cons id rest =>
      rw [List.eraseDups_cons, List.nodup_cons, List.mem_eraseDups]
      constructor
      · simp
      · exact nodup_eraseDups (rest.filter fun other => !other == id)
termination_by ids.length
decreasing_by
  have bound := List.length_filter_le (fun other => !other == id) rest
  simp only [List.length_cons]
  omega

theorem networkSize_eq_card (tally : Tally) :
    tally.networkSize = tally.observed.flatten.toFinset.card := by
  have same : tally.observed.flatten.eraseDups.toFinset = tally.observed.flatten.toFinset := by
    ext id
    simp only [List.mem_toFinset, List.mem_eraseDups]
  rw [networkSize, ← List.toFinset_card_of_nodup (nodup_eraseDups _), same]

end Tally

namespace Engine

variable {settings : Settings} {owner : PeerId} {engine : Engine}

/-- What an engine holds can be counted. -/
theorem Sound.told_sizes (sound : Sound settings owner engine) :
    engine.stats.cacheSize.toNat = engine.cache.size ∧
      engine.stats.fallbackSize.toNat = (engine.fallback.map PeerCache.size).getD 0 := by
  have held : engine.cache.size < UInt64.size := by
    have bound := sound.cache.bounded
    rw [sound.capacity] at bound
    exact Nat.lt_of_le_of_lt bound settings.cacheSize.toNat_lt
  have kept : (engine.fallback.map PeerCache.size).getD 0 < UInt64.size := by
    cases there : engine.fallback with
    | none => decide
    | some pool =>
        have bound := (sound.reserve pool there).bounded
        have small : settings.fallbackCacheSize.toNat < UInt64.size :=
          settings.fallbackCacheSize.toNat_lt
        have one : 1 < UInt64.size := by decide
        change pool.size < UInt64.size
        omega
  exact ⟨UInt64.toNat_ofNat_of_lt held, UInt64.toNat_ofNat_of_lt kept⟩

end Engine

end Overlay
