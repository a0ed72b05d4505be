import Overlay.Coordinate
import Overlay.SocketAddress.Basic

/-!
What a node advertises about itself, and the copies of it that other nodes hold.

A record is versioned by its epoch. A copy also carries an expiry that is fixed when the copy is
first made, so copies of one peer are ordered by epoch and then by expiry (`Entry.isNewerThan`).
-/

set_option autoImplicit false

namespace Overlay

/-- The identity of a node. -/
structure PeerId where
  value : BitVec 128
deriving DecidableEq, Inhabited, Repr

namespace PeerId

def ofNat (number : Nat) : PeerId := ⟨BitVec.ofNat 128 number⟩

def toNat (id : PeerId) : Nat := id.value.toNat

instance : LE PeerId := ⟨fun left right => left.toNat ≤ right.toNat⟩
instance (left right : PeerId) : Decidable (left ≤ right) :=
  inferInstanceAs (Decidable (left.toNat ≤ right.toNat))

/-- The first eight hexadecimal digits, enough to tell nodes apart in a log. -/
def text (id : PeerId) : String :=
  String.ofList ((Hexadecimal.digits 32 id.toNat).take 8)

/-- All thirty-two digits in groups of eight, four, four, four and twelve. -/
def fullText (id : PeerId) : String :=
  let digits := Hexadecimal.digits 32 id.toNat
  let group := fun start length => String.ofList ((digits.drop start).take length)
  "-".intercalate [group 0 8, group 8 4, group 12 4, group 16 4, group 20 12]

end PeerId

/-- A point in time, in milliseconds since a fixed start. -/
structure Timestamp where
  millis : UInt64
deriving DecidableEq, Inhabited, Repr

namespace Timestamp

instance : LE Timestamp := ⟨fun left right => left.millis ≤ right.millis⟩
instance : LT Timestamp := ⟨fun left right => left.millis < right.millis⟩
instance (left right : Timestamp) : Decidable (left ≤ right) :=
  inferInstanceAs (Decidable (left.millis ≤ right.millis))
instance (left right : Timestamp) : Decidable (left < right) :=
  inferInstanceAs (Decidable (left.millis < right.millis))

/-- A later time; the last representable one where the sum is beyond it. -/
def plus (time : Timestamp) (millis : UInt64) : Timestamp :=
  ⟨UInt64.ofNat (min (time.millis.toNat + millis.toNat) (UInt64.size - 1))⟩

/-- Milliseconds passed since an earlier time; none if it is later. -/
def since (time earlier : Timestamp) : UInt64 :=
  UInt64.ofNat (time.millis.toNat - earlier.millis.toNat)

end Timestamp

/-- What a node advertises about itself. -/
structure PeerRecord where
  id : PeerId
  address : SocketAddress
  cluster : String
  epoch : UInt64
  version : UInt32
  coordinate : Option Coordinate
deriving DecidableEq, Inhabited, Repr

/-- The version of the message format that nodes speak unless told otherwise. -/
def protocolVersion : UInt32 := 1

namespace PeerRecord

/-- The first record of a node: epoch zero, and no coordinate yet. -/
def fresh (id : PeerId) (address : SocketAddress) (cluster : String) : PeerRecord :=
  { id, address, cluster, epoch := 0, version := protocolVersion, coordinate := none }

/-- The record after a coordinate was published; its epoch grows until the last one. -/
def publish (record : PeerRecord) (coordinate : Coordinate) : PeerRecord :=
  { record with
    coordinate := some coordinate
    epoch :=
      if record.epoch = UInt64.ofNat (UInt64.size - 1) then record.epoch else record.epoch + 1 }

/-- Equality as numbers see it: the two zeros of a coordinate are equal, and a coordinate with a
component that is no number equals none. -/
def same (left right : PeerRecord) : Bool :=
  let coordinates := match left.coordinate, right.coordinate with
    | some first, some second => first.same second
    | none, none => true
    | _, _ => false
  coordinates && decide ({ left with coordinate := none } = { right with coordinate := none })

end PeerRecord

/-- A copy of a record in a cache: how many rounds it has survived there, and when it expires. -/
structure Entry where
  record : PeerRecord
  age : UInt32
  expiresAt : Timestamp
deriving DecidableEq, Inhabited, Repr

namespace Entry

/-- A new copy that lives for `lifetime` milliseconds from `now` on. -/
def fresh (record : PeerRecord) (now : Timestamp) (lifetime : UInt64) : Entry :=
  { record, age := 0, expiresAt := now.plus lifetime }

def id (entry : Entry) : PeerId := entry.record.id

/-- Whether the time is up; the moment of expiry itself counts. -/
def isExpired (entry : Entry) (now : Timestamp) : Bool := entry.expiresAt ≤ now

/-- Orders copies of one peer: by epoch, then by expiry. -/
def freshness (left right : Entry) : Ordering :=
  (compare left.record.epoch right.record.epoch).then
    (compare left.expiresAt.millis right.expiresAt.millis)

/-- Whether a copy should take the place of another one of the same peer. -/
def isNewerThan (left right : Entry) : Bool := left.freshness right == .gt

/-- Equality of copies, with records compared as numbers see them. -/
def same (left right : Entry) : Bool :=
  left.record.same right.record && left.age == right.age && left.expiresAt == right.expiresAt

/-- One more round survived; the count stops at its largest value. -/
def older (entry : Entry) : Entry :=
  { entry with
    age := if entry.age = UInt32.ofNat (UInt32.size - 1) then entry.age else entry.age + 1 }

end Entry

end Overlay
