import Overlay.Algorithm
import Overlay.Duration
import Overlay.Failure
import Overlay.SampleWindow

/-!
The tunables of a node and what makes them usable.
-/

set_option autoImplicit false

namespace Overlay

/-- The tunables that every part of a node reads. Times are in milliseconds. -/
structure Settings where
  cacheSize : UInt64
  fallbackCacheSize : UInt64
  sendSize : UInt64
  gossipInterval : UInt64
  gossipRetry : Bool
  bootstrapWindow : UInt64
  entryLifetime : UInt64
  algorithms : List Algorithm
  pingTries : UInt64
  vivaldiInterval : UInt64
  maxClusterSize : UInt64
  candidateTarget : UInt64
  clusterInterval : UInt64
  neighborPingInterval : UInt64
  sampleWindow : UInt64
  maxPingFailures : UInt32
  distanceMode : DistanceMode
  connectTimeout : UInt64
  maxMessageBytes : UInt64
  version : UInt32
deriving DecidableEq, Inhabited, Repr

namespace Settings

/-- What holds where nothing is set. -/
def standard : Settings :=
  { cacheSize := 30
    fallbackCacheSize := 10
    sendSize := 10
    gossipInterval := 10000
    gossipRetry := true
    bootstrapWindow := 600000
    entryLifetime := 3600000
    algorithms := Algorithm.all
    pingTries := 4
    vivaldiInterval := 10000
    maxClusterSize := 10
    candidateTarget := 3
    clusterInterval := 30000
    neighborPingInterval := 60000
    sampleWindow := 5
    maxPingFailures := 5
    distanceMode := .min
    connectTimeout := 10000
    maxMessageBytes := 1048576
    version := protocolVersion }

/-- Small caches and short intervals, for networks that live only for a moment. -/
def brisk : Settings :=
  { standard with
    cacheSize := 5
    fallbackCacheSize := 3
    sendSize := 3
    gossipInterval := 50
    bootstrapWindow := 60000
    entryLifetime := 60000
    vivaldiInterval := 50
    maxClusterSize := 3
    candidateTarget := 2
    clusterInterval := 100
    neighborPingInterval := 100
    connectTimeout := 1000
    maxMessageBytes := 65536 }

/-- The fields that must not be zero, by name, in the order in which they are checked. -/
def positiveFields (settings : Settings) : List (String × UInt64) :=
  [("cache_size", settings.cacheSize), ("send_size", settings.sendSize),
    ("sample_window", settings.sampleWindow), ("max_cluster_size", settings.maxClusterSize)]

/-- The first reason for which the settings cannot be used, if there is one. -/
def fault? (settings : Settings) : Option SettingsFault :=
  match settings.positiveFields.find? (·.2 = 0) with
  | some (field, _) => some (.invalid field "must be at least 1")
  | none =>
    if settings.pingTries = 0 ∨ 256 < settings.pingTries then
      some (.invalid "ping_tries"
        (toString settings.pingTries.toNat ++ " is outside 1..=256"))
    else if settings.algorithms.isEmpty then
      some (.invalid "algorithms" "at least one gossip algorithm is required")
    else if settings.gossipInterval = 0 ∨ settings.vivaldiInterval = 0
        ∨ settings.clusterInterval = 0 then
      some (.invalid "interval" "loop intervals must be non-zero")
    else none

/-- Settings that can be used, or the first reason why not. -/
def validate (settings : Settings) : Except SettingsFault Settings :=
  match settings.fault? with
  | some fault => .error fault
  | none => .ok settings

/-- The time a connection may take to be made. -/
def patience (settings : Settings) : Duration := Duration.ofMillis settings.connectTimeout.toNat

/-- The pause between rounds of gossip, before jitter. -/
def gossipPause (settings : Settings) : Duration :=
  Duration.ofMillis settings.gossipInterval.toNat

/-- The pause between refinements of the coordinate, before jitter. -/
def vivaldiPause (settings : Settings) : Duration :=
  Duration.ofMillis settings.vivaldiInterval.toNat

/-- The pause between maintenance passes, before jitter. -/
def clusterPause (settings : Settings) : Duration :=
  Duration.ofMillis settings.clusterInterval.toNat

/-- The pause between pings of one neighbor, before jitter. -/
def neighborPause (settings : Settings) : Duration :=
  Duration.ofMillis settings.neighborPingInterval.toNat

end Settings

end Overlay
