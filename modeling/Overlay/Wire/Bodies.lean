import Overlay.Settings.Basic
import Overlay.Wire.Layout

/-!
The layouts of everything that travels between nodes or is stored in the same form.
-/

set_option autoImplicit false

namespace Overlay

/-- A gossip request or reply; both have one form. -/
structure Message where
  sender : PeerRecord
  /-- The node that the sender believes it is talking to. -/
  receiver : PeerRecord
  entries : List Entry
  isRequest : Bool
  /-- The name of the algorithm that this exchange belongs to. -/
  algorithm : String
deriving DecidableEq, Inhabited, Repr

/-- What one algorithm has done so far, and what it holds. -/
structure Stats where
  algorithm : String
  exchanges : UInt64
  failures : UInt64
  fallbackRetries : UInt64
  requestsServed : UInt64
  networkSize : UInt64
  cacheSize : UInt64
  fallbackSize : UInt64
deriving DecidableEq, Inhabited, Repr

namespace Wire.Layout

/-- Eight bytes of a double, lowest first. -/
def double : Layout Binary64 := word64.map Binary64.mk Binary64.bits

def coordinate : Layout Coordinate :=
  (double.pair (double.pair double)).map (fun value => ⟨value.1, value.2.1, value.2.2⟩)
    fun point => (point.x, point.y, point.z)

/-- Sixteen bytes after their number. -/
def peerId : Layout PeerId where
  write id := word64.write 16 ++ (bits 16).write id.value
  read bytes := do
    let (length, rest) ← word64.read bytes
    let (taken, rest) ← takeBlock length.toNat rest
    if taken.length = 16 then
      let (value, _) ← (bits 16).read taken
      pure (⟨value⟩, rest)
    else throw (.notSixteenBytes taken.length)

/-- Alternative zero is the narrow family, one the wide family, of which neither the flow nor the
scope is written. -/
def socketAddress : Layout SocketAddress where
  write
    | .v4 ip port => word32.write 0 ++ ((bits 4).pair word16).write (ip, port)
    | .v6 ip port _ _ => word32.write 1 ++ ((bits 16).pair word16).write (ip, port)
  read bytes := do
    let (family, rest) ← word32.read bytes
    if family = 0 then
      let ((ip, port), rest) ← ((bits 4).pair word16).read rest
      pure (.v4 ip port, rest)
    else if family = 1 then
      let ((ip, port), rest) ← ((bits 16).pair word16).read rest
      pure (.v6 ip port 0 0, rest)
    else throw (.notAnAlternative family.toNat "\x60V4\x60 or \x60V6\x60")

def timestamp : Layout Timestamp := word64.map Timestamp.mk Timestamp.millis

def peerRecord : Layout PeerRecord :=
  (peerId.pair (socketAddress.pair (text.pair (word64.pair (word32.pair (option coordinate)))))).map
    (fun value =>
      { id := value.1
        address := value.2.1
        cluster := value.2.2.1
        epoch := value.2.2.2.1
        version := value.2.2.2.2.1
        coordinate := value.2.2.2.2.2 })
    fun record =>
      (record.id, record.address, record.cluster, record.epoch, record.version, record.coordinate)

def entry : Layout Entry :=
  (peerRecord.pair (word32.pair timestamp)).map (fun value => ⟨value.1, value.2.1, value.2.2⟩)
    fun entry => (entry.record, entry.age, entry.expiresAt)

def message : Layout Message :=
  (peerRecord.pair (peerRecord.pair ((list entry).pair (bool.pair text)))).map
    (fun value =>
      { sender := value.1
        receiver := value.2.1
        entries := value.2.2.1
        isRequest := value.2.2.2.1
        algorithm := value.2.2.2.2 })
    fun message =>
      (message.sender, message.receiver, message.entries, message.isRequest, message.algorithm)

def stats : Layout Stats :=
  (text.pair (word64.pair (word64.pair (word64.pair (word64.pair (word64.pair
    (word64.pair word64))))))).map
    (fun value =>
      { algorithm := value.1
        exchanges := value.2.1
        failures := value.2.2.1
        fallbackRetries := value.2.2.2.1
        requestsServed := value.2.2.2.2.1
        networkSize := value.2.2.2.2.2.1
        cacheSize := value.2.2.2.2.2.2.1
        fallbackSize := value.2.2.2.2.2.2.2 })
    fun stats =>
      (stats.algorithm, stats.exchanges, stats.failures, stats.fallbackRetries,
        stats.requestsServed, stats.networkSize, stats.cacheSize, stats.fallbackSize)

def algorithm : Layout Algorithm := oneOf Algorithm.all

def distanceMode : Layout DistanceMode := oneOf [.min, .mean]

/-- The tunables of gossip, in the order in which they are written. -/
private abbrev GossipPart :=
  UInt64 × UInt64 × UInt64 × UInt64 × Bool × UInt64 × UInt64 × List Algorithm

/-- The tunables of coordinates and neighbors. -/
private abbrev ClusterPart :=
  UInt64 × UInt64 × UInt64 × UInt64 × UInt64 × UInt64 × UInt64 × UInt32 × DistanceMode

private def gossipPart : Layout GossipPart :=
  word64.pair (word64.pair (word64.pair (word64.pair (bool.pair (word64.pair (word64.pair
    (list algorithm)))))))

private def clusterPart : Layout ClusterPart :=
  word64.pair (word64.pair (word64.pair (word64.pair (word64.pair (word64.pair (word64.pair
    (word32.pair distanceMode)))))))

def settings : Layout Settings :=
  (gossipPart.pair (clusterPart.pair (word64.pair (word64.pair word32)))).map
    (fun ((cacheSize, fallbackCacheSize, sendSize, gossipInterval, gossipRetry, bootstrapWindow,
        entryLifetime, algorithms),
        (pingTries, vivaldiInterval, maxClusterSize, candidateTarget, clusterInterval,
        neighborPingInterval, sampleWindow, maxPingFailures, distanceMode),
        connectTimeout, maxMessageBytes, version) =>
      { cacheSize, fallbackCacheSize, sendSize, gossipInterval, gossipRetry, bootstrapWindow,
        entryLifetime, algorithms, pingTries, vivaldiInterval, maxClusterSize, candidateTarget,
        clusterInterval, neighborPingInterval, sampleWindow, maxPingFailures, distanceMode,
        connectTimeout, maxMessageBytes, version })
    fun s =>
      ((s.cacheSize, s.fallbackCacheSize, s.sendSize, s.gossipInterval, s.gossipRetry,
        s.bootstrapWindow, s.entryLifetime, s.algorithms),
        (s.pingTries, s.vivaldiInterval, s.maxClusterSize, s.candidateTarget, s.clusterInterval,
        s.neighborPingInterval, s.sampleWindow, s.maxPingFailures, s.distanceMode),
        s.connectTimeout, s.maxMessageBytes, s.version)

end Wire.Layout

end Overlay
