import Overlay.Document.Value
import Overlay.Settings.Basic

/-!
The settings by name: where each one stands in a document, how it is read from a value and written
as one. Every reader and writer of settings goes through the one list `Slot.all`.
-/

set_option autoImplicit false

namespace Overlay.Settings

open Document (Format Value Fields)

/-- One setting as documents see it. -/
structure Slot where
  /-- Its name among all settings. -/
  name : String
  /-- The table it stands in, in a document with tables. -/
  table : String
  /-- Its key in that table. -/
  key : String
  write : Settings → Value
  read : Format → Value → Settings → Option Settings

namespace Slot

/-- A whole number of sixty-four bits. -/
def word64 (name table key : String) (get : Settings → UInt64)
    (set : UInt64 → Settings → Settings) : Slot :=
  ⟨name, table, key, fun settings => .whole (get settings).toNat,
    fun _ value settings => (value.word64?).map (set · settings)⟩

/-- A whole number of thirty-two bits. -/
def word32 (name table key : String) (get : Settings → UInt32)
    (set : UInt32 → Settings → Settings) : Slot :=
  ⟨name, table, key, fun settings => .whole (get settings).toNat,
    fun _ value settings => (value.word32?).map (set · settings)⟩

/-- A truth value. -/
def flag (name table key : String) (get : Settings → Bool)
    (set : Bool → Settings → Settings) : Slot :=
  ⟨name, table, key, fun settings => .flag (get settings),
    fun _ value settings => value.flag?.map (set · settings)⟩

/-- The algorithms by name, in their order. -/
def algorithms : Slot where
  name := "algorithms"
  table := "gossip"
  key := "algorithms"
  write settings := .list (settings.algorithms.map fun algorithm => .text algorithm.name)
  read format value settings := do
    let names ← (← value.list?).mapM (Value.choice? format)
    pure { settings with algorithms := ← names.mapM Algorithm.ofName? }

/-- The name of a distance mode. -/
def modeName : DistanceMode → String
  | .min => "min"
  | .mean => "mean"

def distanceMode : Slot where
  name := "distance_mode"
  table := "cluster"
  key := "distance_mode"
  write settings := .text (modeName settings.distanceMode)
  read format value settings := do
    let name ← value.choice? format
    let mode ← [DistanceMode.min, .mean].find? (modeName · == name)
    pure { settings with distanceMode := mode }

/-- Every setting, in the order in which lists of settings give them. -/
def all : List Slot :=
  [word64 "cache_size" "gossip" "cache_size" (·.cacheSize)
      fun number settings => { settings with cacheSize := number },
    word64 "fallback_cache_size" "gossip" "fallback_cache_size" (·.fallbackCacheSize)
      fun number settings => { settings with fallbackCacheSize := number },
    word64 "send_size" "gossip" "send_size" (·.sendSize)
      fun number settings => { settings with sendSize := number },
    word64 "gossip_interval_ms" "gossip" "interval_ms" (·.gossipInterval)
      fun number settings => { settings with gossipInterval := number },
    flag "gossip_retry" "gossip" "retry" (·.gossipRetry)
      fun value settings => { settings with gossipRetry := value },
    word64 "bootstrap_window_ms" "bootstrap" "window_ms" (·.bootstrapWindow)
      fun number settings => { settings with bootstrapWindow := number },
    word64 "entry_ttl_ms" "gossip" "entry_ttl_ms" (·.entryLifetime)
      fun number settings => { settings with entryLifetime := number },
    algorithms,
    word64 "ping_tries" "vivaldi" "ping_tries" (·.pingTries)
      fun number settings => { settings with pingTries := number },
    word64 "vivaldi_interval_ms" "vivaldi" "interval_ms" (·.vivaldiInterval)
      fun number settings => { settings with vivaldiInterval := number },
    word64 "max_cluster_size" "cluster" "max_size" (·.maxClusterSize)
      fun number settings => { settings with maxClusterSize := number },
    word64 "candidate_target" "cluster" "candidate_target" (·.candidateTarget)
      fun number settings => { settings with candidateTarget := number },
    word64 "cluster_interval_ms" "cluster" "interval_ms" (·.clusterInterval)
      fun number settings => { settings with clusterInterval := number },
    word64 "neighbor_ping_interval_ms" "cluster" "neighbor_ping_interval_ms"
      (·.neighborPingInterval)
      fun number settings => { settings with neighborPingInterval := number },
    word64 "sample_window" "cluster" "sample_window" (·.sampleWindow)
      fun number settings => { settings with sampleWindow := number },
    word32 "max_ping_failures" "cluster" "max_ping_failures" (·.maxPingFailures)
      fun number settings => { settings with maxPingFailures := number },
    distanceMode,
    word64 "connect_timeout_ms" "node" "connect_timeout_ms" (·.connectTimeout)
      fun number settings => { settings with connectTimeout := number },
    word64 "max_message_bytes" "node" "max_message_bytes" (·.maxMessageBytes)
      fun number settings => { settings with maxMessageBytes := number },
    word32 "protocol_version" "node" "protocol_version" (·.version)
      fun number settings => { settings with version := number }]

/-- Reads one setting if its field is there. -/
def readFrom (slot : Slot) (format : Format) (field : String) (fields : Fields)
    (settings : Settings) : Option Settings :=
  match fields.get? field with
  | some value => slot.read format value settings
  | none => some settings

end Slot

/-- All settings by name. -/
def toFields (settings : Settings) : Fields :=
  Slot.all.map fun slot => (slot.name, slot.write settings)

/-- The settings named in a JSON table, and those of `base` for the rest; nothing if one has a value
of the wrong kind. Fields of other names do not matter. -/
def ofFields? (base : Settings) (fields : Fields) : Option Settings :=
  Slot.all.foldlM (fun settings slot => slot.readFrom .json slot.name fields settings) base

/-- The settings that a JSON value gives: a table by name, or a list in the order of all
settings. -/
def ofValue? (base : Settings) (value : Value) : Option Settings :=
  match value with
  | .table fields => ofFields? base fields
  | .list items =>
    if items.length ≤ Slot.all.length then
      ofFields? base ((Slot.all.map (·.name)).zip items)
    else none
  | _ => none

end Overlay.Settings
