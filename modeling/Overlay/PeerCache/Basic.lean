import Overlay.Algorithm
import Overlay.Dice
import Overlay.Peer

/-!
The bounded cache of peers that nodes gossip about.

A cache keeps at most one copy of each peer, never one of its owner, and at most `capacity` copies.
Copies stand in the order in which their peers came in; a fresher copy takes the place of the one it
replaces.
-/

set_option autoImplicit false

namespace Overlay

/-- A node's cache of peers. -/
structure PeerCache where
  owner : PeerId
  capacity : Nat
  version : UInt32
  eviction : Eviction
  entries : List Entry
deriving Inhabited, Repr

namespace PeerCache

def empty (owner : PeerId) (capacity : Nat) (version : UInt32) (eviction : Eviction) :
    PeerCache := ⟨owner, capacity, version, eviction, []⟩

def size (cache : PeerCache) : Nat := cache.entries.length

/-- The copy held of a peer. -/
def find? (cache : PeerCache) (id : PeerId) : Option Entry := cache.entries.find? (·.id = id)

def contains (cache : PeerCache) (id : PeerId) : Bool := cache.entries.any (·.id = id)

def records (cache : PeerCache) : List PeerRecord := cache.entries.map (·.record)

/-- Puts a copy in the place of the one held of the same peer if it wins against it, or at the end
if none is held. -/
def upsert (wins : Entry → Entry → Bool) (entry : Entry) : List Entry → List Entry
  | [] => [entry]
  | held :: rest =>
    if held.id = entry.id then (if wins entry held then entry else held) :: rest
    else held :: upsert wins entry rest

/-- Whether `upsert` stores the copy. -/
def accepts (wins : Entry → Entry → Bool) (entry : Entry) (entries : List Entry) : Bool :=
  match entries.find? (·.id = entry.id) with
  | some held => wins entry held
  | none => true

/-- A copy that was just confirmed wins unless the held one is strictly fresher. -/
def confirms (entry held : Entry) : Bool := !held.isNewerThan entry

/-- Merges copies one after the other; strictly fresher ones win. -/
def merge (incoming entries : List Entry) : List Entry :=
  incoming.foldl (fun held entry => upsert Entry.isNewerThan entry held) entries

/-- Whether a copy may stay: not of the owner, not expired, and of the owner's version. -/
def isLive (cache : PeerCache) (now : Timestamp) (entry : Entry) : Bool :=
  entry.id != cache.owner && !entry.isExpired now && entry.record.version == cache.version

/-- The freshest live copy of each peer, in the place of its first live copy. -/
def liveView (cache : PeerCache) (now : Timestamp) : List Entry :=
  merge (cache.entries.filter (cache.isLive now)) []

/-- The better of the place found so far and the next entry: one that has survived more rounds, and
is not the protected peer's. A place comes with the rounds that its entry has survived. -/
def older (protect : Option PeerId) (best : Option (Nat × UInt32)) (item : Entry × Nat) :
    Option (Nat × UInt32) :=
  if some item.1.id = protect then best
  else match best with
    | some (_, age) => if item.1.age ≤ age then best else some (item.2, item.1.age)
    | none => some (item.2, item.1.age)

/-- The place of the first of the entries that have survived most rounds, the protected peer's
left out. -/
def oldestIndex (protect : Option PeerId) (entries : List Entry) : Option Nat :=
  (entries.zipIdx.foldl (older protect) none).map Prod.fst

/-- The place of a random entry, the protected peer's left out: places from that one on move up. -/
def randomIndex (protect : Option PeerId) (entries : List Entry) : Chance (Option Nat) :=
  let protectedPlace := protect.bind fun id => entries.findIdx? (·.id = id)
  let candidates := entries.length - (if protectedPlace.isSome then 1 else 0)
  if candidates = 0 then pure none
  else do
    let place ← Dice.index candidates
    pure (some (match protectedPlace with
      | some skipped => if skipped ≤ place then place + 1 else place
      | none => place))

/-- The place of the entry to give up next. -/
def victim (eviction : Eviction) (protect : Option PeerId) (entries : List Entry) :
    Chance (Option Nat) :=
  match eviction with
  | .random => randomIndex protect entries
  | .oldest => pure (oldestIndex protect entries)

/-- Gives up entries one by one, as many as asked for or until only the protected one is left. -/
def giveUp (eviction : Eviction) (protect : Option PeerId) :
    Nat → List Entry → Chance (List Entry)
  | 0, entries => pure entries
  | excess + 1, entries => do
    match ← victim eviction protect entries with
    | some place => giveUp eviction protect excess (entries.eraseIdx place)
    | none => pure entries

/-- Gives up entries until at most `limit` are left. -/
def trim (cache : PeerCache) (limit : Nat) (protect : Option PeerId) : Chance PeerCache := do
  let kept ← giveUp cache.eviction protect (cache.size - limit) cache.entries
  pure { cache with entries := kept }

/-- Adds one copy and trims. The answer tells whether the copy was stored: the owner's never is, and
another peer's only if it is new or fresher than the held one. -/
def add (cache : PeerCache) (entry : Entry) : Chance (Bool × PeerCache) :=
  if entry.id = cache.owner then pure (false, cache)
  else do
    let merged := { cache with entries := upsert Entry.isNewerThan entry cache.entries }
    let trimmed ← merged.trim cache.capacity none
    pure (accepts Entry.isNewerThan entry cache.entries, trimmed)

/-- Keeps the live view and trims it. -/
def cleanup (cache : PeerCache) (now : Timestamp) : Chance PeerCache :=
  { cache with entries := cache.liveView now }.trim cache.capacity none

/-- Merges a batch of copies, the owner's left out, and cleans up. -/
def addAll (cache : PeerCache) (now : Timestamp) (incoming : List Entry) : Chance PeerCache :=
  { cache with
    entries := merge (incoming.filter (·.id != cache.owner)) cache.entries }.cleanup now

/-- Stores a copy that was just confirmed and trims to `limit`, one at least, without giving that
peer up. -/
def replace (cache : PeerCache) (entry : Entry) (limit : Nat) : Chance PeerCache :=
  if entry.id = cache.owner then pure cache
  else
    { cache with entries := upsert confirms entry cache.entries }.trim (max limit 1)
      (some entry.id)

/-- One more round survived by every entry. -/
def growOlder (cache : PeerCache) : PeerCache :=
  { cache with entries := cache.entries.map Entry.older }

/-- Takes the entry at a place out. -/
def takeAt (cache : PeerCache) (place : Nat) : Option Entry × PeerCache :=
  (cache.entries[place]?, { cache with entries := cache.entries.eraseIdx place })

def removeRandom (cache : PeerCache) : Chance (Option Entry × PeerCache) :=
  if cache.entries.isEmpty then pure (none, cache)
  else do
    let place ← Dice.index cache.size
    pure (cache.takeAt place)

def removeOldest (cache : PeerCache) : Option Entry × PeerCache :=
  match oldestIndex none cache.entries with
  | some place => cache.takeAt place
  | none => (none, cache)

end PeerCache

end Overlay
