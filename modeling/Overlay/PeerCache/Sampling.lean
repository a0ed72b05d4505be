import Overlay.PeerCache.Basic

/-!
Reading random and oldest entries from a cache. The cache itself stays as it is.

A sample is drawn by picking places and passing over repeated ones. Since a source may repeat itself
for ever, the picking stops after eight draws for each entry wanted, and what is then missing is
dealt from the places not picked yet.
-/

set_option autoImplicit false

namespace Overlay.PeerCache

/-- Draws allowed for each entry of a sample before the rest is dealt. -/
def drawsPerEntry : Nat := 8

/-- Picks distinct places below `length` until `count` are found or the draws are used up. -/
def pickPlaces (length count : Nat) : Nat → List Nat → Chance (List Nat)
  | 0, picked => pure picked
  | draws + 1, picked =>
    if count ≤ picked.length then pure picked
    else do
      let place ← Dice.index length
      pickPlaces length count draws (if place ∈ picked then picked else picked ++ [place])

/-- `count` distinct places below `length`, which is larger. -/
def samplePlaces (length count : Nat) : Chance (List Nat) := do
  let picked ← pickPlaces length count (count * drawsPerEntry) []
  let others := (List.range length).filter (· ∉ picked)
  let dealt ← Dice.deal (count - picked.length) others
  pure (picked ++ dealt)

/-- Distinct entries in random order; the whole cache where as many or more are wanted. -/
def sample (cache : PeerCache) (count : Nat) : Chance (List Entry) :=
  if cache.size ≤ count then pure cache.entries
  else do
    let places ← samplePlaces cache.size count
    pure (places.filterMap (cache.entries[·]?))

/-- One random entry. -/
def randomEntry (cache : PeerCache) : Chance (Option Entry) :=
  if cache.entries.isEmpty then pure none
  else do
    let place ← Dice.index cache.size
    pure cache.entries[place]?

/-- The first of the entries that have survived most rounds. -/
def oldestEntry (cache : PeerCache) : Option Entry :=
  (oldestIndex none cache.entries).bind (cache.entries[·]?)

/-- The cache in one line, with the number of its entries. -/
def summary (cache : PeerCache) : String :=
  let eviction := match cache.eviction with
    | .random => "Random"
    | .oldest => "Oldest"
  "PeerCache \x7b local_id: PeerId(" ++ cache.owner.fullText ++ "), capacity: "
    ++ toString cache.capacity ++ ", eviction: " ++ eviction ++ ", len: " ++ toString cache.size
    ++ " \x7d"

end Overlay.PeerCache
