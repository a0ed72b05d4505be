import Overlay.PeerCache.Sampling

/-!
Everything that can be done with a cache, as data, so that a sequence of operations is a list.
-/

set_option autoImplicit false

namespace Overlay.PeerCache

/-- An operation on a cache. Those that look at the clock are given the time. -/
inductive Operation
  | add (entry : Entry)
  | addAll (now : Timestamp) (incoming : List Entry)
  | replace (entry : Entry) (limit : Nat)
  | removeRandom
  | removeOldest
  | cleanup (now : Timestamp)
  | growOlder
  | sample (count : Nat)
  | randomEntry
  | oldestEntry
  | contains (id : PeerId)
  | size
  | entries
  | records
deriving DecidableEq, Repr

/-- What an operation answers with. -/
inductive Answer
  | done
  | stored (isStored : Bool)
  | entry (found : Option Entry)
  | entries (found : List Entry)
  | records (found : List PeerRecord)
  | size (number : Nat)
  | contained (isContained : Bool)
deriving DecidableEq, Repr

namespace Operation

/-- Whether an operation only looks at the cache. -/
def isReading : Operation → Bool
  | .sample _ | .randomEntry | .oldestEntry | .contains _ | .size | .entries | .records => true
  | _ => false

/-- A limit that is handed to a cache lies between one and the capacity. -/
def Admissible (capacity : Nat) : Operation → Prop
  | .replace _ limit => 1 ≤ limit ∧ limit ≤ capacity
  | _ => True

/-- Does one operation. -/
def perform (cache : PeerCache) : Operation → Chance (Answer × PeerCache)
  | .add entry => do
    let (isStored, after) ← cache.add entry
    pure (.stored isStored, after)
  | .addAll now incoming => do pure (.done, ← cache.addAll now incoming)
  | .replace entry limit => do pure (.done, ← cache.replace entry limit)
  | .removeRandom => do
    let (taken, after) ← cache.removeRandom
    pure (.entry taken, after)
  | .removeOldest =>
    let (taken, after) := cache.removeOldest
    pure (.entry taken, after)
  | .cleanup now => do pure (.done, ← cache.cleanup now)
  | .growOlder => pure (.done, cache.growOlder)
  | .sample count => do pure (.entries (← cache.sample count), cache)
  | .randomEntry => do pure (.entry (← cache.randomEntry), cache)
  | .oldestEntry => pure (.entry cache.oldestEntry, cache)
  | .contains id => pure (.contained (cache.contains id), cache)
  | .size => pure (.size cache.size, cache)
  | .entries => pure (.entries cache.entries, cache)
  | .records => pure (.records cache.records, cache)

/-- Does operations one after the other. -/
def run (cache : PeerCache) : List Operation → Chance PeerCache
  | [] => pure cache
  | operation :: rest => do
    let (_, after) ← operation.perform cache
    run after rest

end Operation

end Overlay.PeerCache
