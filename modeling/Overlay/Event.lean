import Overlay.Algorithm
import Overlay.Distance
import Overlay.Document.Value
import Overlay.Failure

/-!
The log events of a node: what each one says, how important it is, and which part of the program it
comes from.
-/

set_option autoImplicit false

namespace Overlay

/-- How important an event is, from most to least. -/
inductive Level
  | error
  | warn
  | info
  | debug
  | trace
deriving DecidableEq, Inhabited, Repr

namespace Level

def name : Level → String
  | .error => "error"
  | .warn => "warn"
  | .info => "info"
  | .debug => "debug"
  | .trace => "trace"

/-- The verbosity from which on the level is shown. -/
def verbosity : Level → Nat
  | .error => 1
  | .warn => 2
  | .info => 3
  | .debug => 4
  | .trace => 5

end Level

/-- Something worth a line in the log. -/
inductive Event
  | emptyCache (algorithm : Algorithm)
  | exchangeFailed (algorithm : Algorithm) (peer : PeerId) (failure : Failure)
  | fallbackFailed (algorithm : Algorithm) (peer : PeerId) (failure : Failure)
  | readdressed (algorithm : Algorithm) (addressedTo : PeerId)
  | seeded (algorithm : Algorithm) (peer : PeerId)
  | roundCompleted (algorithm : Algorithm) (peer : PeerId) (received : Nat) (viaFallback : Bool)
      (cacheSize : Nat)
  | roundFailed (algorithm : Algorithm) (failure : Failure)
  | gossipStarted (algorithm : Algorithm)
  | gossipStopped (algorithm : Algorithm)
  | requestRejected (failure : Failure)
  | unknownTag (byte : UInt8)
  | unknownOpcode (byte : UInt8)
  | bootstrapUnavailable (address : SocketAddress) (failure : Failure)
  | pingCompleted (address : SocketAddress) (roundTrip : Binary64)
  | coordinateUpdated (peer : PeerId) (roundTrip error : Binary64)
  | refinementFailed (peer : PeerId) (failure : Failure)
  | refinementStopped
  | neighborPinged (peer : PeerId) (roundTrip : Binary64) (distance : Distance)
  | neighborFailed (peer : PeerId) (failures : UInt32) (failure : Failure)
  | neighborReplaced (expected actual : PeerId) (address : SocketAddress)
  | trackerStopped (peer : PeerId)
  | maintained (neighbors candidates removed evicted added : Nat)
  | maintenanceStopped
  | status (node : PeerId) (knownPeers neighbors : Nat) (nearest : Distance) (error : Binary64)
  | reporterStopped
  | accepting (address : SocketAddress)
  | acceptorStopped
  | nodeStarted (node : PeerId) (bound advertised : SocketAddress) (cluster : String)
      (bootstrapNodes : Nat)
  | nodeRunning (node : PeerId) (address : SocketAddress)
  | stopping
  | stopped
  | loggingStarted (service filter : String) (structured : Bool)
  | loggingStopped (service : String)
deriving Inhabited

namespace Event

open Document (Value)

def level : Event → Level
  | .emptyCache .. | .pingCompleted .. | .neighborPinged .. => .trace
  | .neighborReplaced .. => .warn
  | .gossipStarted .. | .gossipStopped .. | .maintenanceStopped | .status .. | .accepting ..
  | .acceptorStopped | .nodeStarted .. | .nodeRunning .. | .stopping | .stopped
  | .loggingStarted .. | .loggingStopped .. => .info
  | _ => .debug

/-- The part of the program that an event comes from, as filters name it. -/
def target : Event → String
  | .emptyCache .. | .exchangeFailed .. | .fallbackFailed .. | .readdressed .. | .seeded ..
  | .roundCompleted .. | .roundFailed .. | .gossipStarted .. | .gossipStopped .. =>
    "grid_discovery::service::gossip::engine"
  | .requestRejected .. => "grid_discovery::service::gossip::service"
  | .unknownTag .. => "grid_discovery::service::dispatch"
  | .unknownOpcode .. => "grid_discovery::service::node_info"
  | .bootstrapUnavailable .. => "grid_discovery::adapters::bootstrap"
  | .pingCompleted .. | .coordinateUpdated .. | .refinementFailed .. | .refinementStopped =>
    "grid_discovery::service::vivaldi"
  | .neighborPinged .. | .neighborFailed .. | .neighborReplaced .. | .trackerStopped .. =>
    "grid_discovery::service::tracker"
  | .maintained .. | .maintenanceStopped => "grid_discovery::service::cluster"
  | .status .. | .reporterStopped => "grid_node::reporter"
  | .accepting .. | .acceptorStopped => "grid_discovery::adapters::tcp"
  | .nodeStarted .. | .stopping | .stopped => "grid_node::runtime"
  | .nodeRunning .. => "grid_node_cli"
  | .loggingStarted .. => "grid_telemetry::tracing_setup"
  | .loggingStopped .. => "grid_telemetry"

def message : Event → String
  | .emptyCache .. => "Empty cache, skipping round"
  | .exchangeFailed .. => "Gossip exchange failed"
  | .fallbackFailed .. => "Fallback exchange failed"
  | .readdressed .. => "Answering request addressed to a previous node at this address"
  | .seeded .. => "Seeding cache from bootstrap"
  | .roundCompleted .. => "Gossip round completed"
  | .roundFailed .. => "Gossip round failed"
  | .gossipStarted .. => "Gossip loop started"
  | .gossipStopped .. => "Gossip loop stopped"
  | .requestRejected .. => "Rejecting gossip request"
  | .unknownTag .. => "Dropping connection with unknown service tag"
  | .unknownOpcode .. => "Rejecting node-info request with unknown opcode"
  | .bootstrapUnavailable .. => "Bootstrap node unavailable"
  | .pingCompleted .. => "Ping completed"
  | .coordinateUpdated .. => "Coordinate updated"
  | .refinementFailed .. => "Vivaldi ping failed"
  | .refinementStopped => "Vivaldi loop stopped"
  | .neighborPinged .. => "Neighbor ping"
  | .neighborFailed .. => "Neighbor ping failed"
  | .neighborReplaced .. => "Neighbor identity changed, following new node"
  | .trackerStopped .. => "Neighbor tracker stopped"
  | .maintained .. => "Cluster maintenance pass"
  | .maintenanceStopped => "Cluster maintenance stopped"
  | .status .. => "Node status"
  | .reporterStopped => "Stats reporter stopped"
  | .accepting .. => "Accepting connections"
  | .acceptorStopped => "Acceptor stopped"
  | .nodeStarted .. => "Node started"
  | .nodeRunning .. => "Node is running. Press Ctrl+C to stop."
  | .stopping => "Initiating graceful shutdown..."
  | .stopped => "Shutdown complete"
  | .loggingStarted .. => "Tracing initialized"
  | .loggingStopped .. => "Shutting down telemetry"

/-- A field of an event: a value as it is, or a text that is shown without quotes. -/
inductive Detail
  | typed (value : Value)
  | plain (text : String)
deriving Inhabited

private def id (peer : PeerId) : Detail := .plain peer.text
private def count (number : Nat) : Detail := .typed (.whole number)
private def cause (failure : Failure) : Detail := .plain failure.message
private def named (algorithm : Algorithm) : Detail := .plain algorithm.name

/-- The fields of an event after its message, in order. -/
def details : Event → List (String × Detail)
  | .emptyCache algorithm | .gossipStarted algorithm | .gossipStopped algorithm =>
    [("algorithm", named algorithm)]
  | .exchangeFailed algorithm peer failure | .fallbackFailed algorithm peer failure =>
    [("algorithm", named algorithm), ("peer_id", id peer), ("error", cause failure)]
  | .readdressed algorithm addressedTo =>
    [("algorithm", named algorithm), ("addressed_to", id addressedTo)]
  | .seeded algorithm peer => [("algorithm", named algorithm), ("peer_id", id peer)]
  | .roundCompleted algorithm peer received viaFallback cacheSize =>
    [("algorithm", named algorithm), ("peer_id", id peer), ("received", count received),
      ("via_fallback", .typed (.flag viaFallback)), ("cache_size", count cacheSize)]
  | .roundFailed algorithm failure =>
    [("algorithm", named algorithm), ("error", cause failure)]
  | .requestRejected failure => [("error", cause failure)]
  | .unknownTag byte => [("tag", count byte.toNat)]
  | .unknownOpcode byte => [("opcode", count byte.toNat)]
  | .bootstrapUnavailable address failure =>
    [("addr", .plain address.text), ("error", cause failure)]
  | .pingCompleted address roundTrip =>
    [("addr", .plain address.text), ("rtt_ms", .typed (.real roundTrip))]
  | .coordinateUpdated peer roundTrip error =>
    [("peer_id", id peer), ("rtt_ms", .typed (.real roundTrip)), ("error", .typed (.real error))]
  | .refinementFailed peer failure => [("peer_id", id peer), ("error", cause failure)]
  | .neighborPinged peer roundTrip distance =>
    [("peer_id", id peer), ("rtt_ms", .typed (.real roundTrip)), ("distance", .plain distance.text)]
  | .neighborFailed peer failures failure =>
    [("peer_id", id peer), ("failures", count failures.toNat), ("error", cause failure)]
  | .neighborReplaced expected actual address =>
    [("expected", id expected), ("actual", id actual), ("address", .plain address.text)]
  | .trackerStopped peer => [("peer_id", id peer)]
  | .maintained neighbors candidates removed evicted added =>
    [("neighbors", count neighbors), ("candidates", count candidates), ("removed", count removed),
      ("evicted", count evicted), ("added", count added)]
  | .status node knownPeers neighbors nearest error =>
    [("subsystem", .typed (.text "reporter")), ("peer_id", id node),
      ("known_peers", count knownPeers), ("neighbors", count neighbors),
      ("nearest", .plain nearest.text), ("coordinate_error", .typed (.real error))]
  | .accepting address => [("addr", .plain ("Some(" ++ address.text ++ ")"))]
  | .nodeStarted node bound advertised cluster bootstrapNodes =>
    [("subsystem", .typed (.text "runtime")), ("peer_id", id node), ("bound", .plain bound.text),
      ("public", .plain advertised.text), ("cluster", .plain cluster),
      ("bootstrap_nodes", count bootstrapNodes)]
  | .nodeRunning node address => [("peer_id", id node), ("addr", .plain address.text)]
  | .loggingStarted service filter structured =>
    [("service", .plain service), ("log_level", .plain filter),
      ("json_logs", .typed (.flag structured))]
  | .loggingStopped service => [("service", .plain service)]
  | _ => []

/-- The value of a field. -/
def Detail.toValue : Detail → Value
  | .typed value => value
  | .plain text => .text text

/-- All fields of an event, its message first. -/
def fields (event : Event) : List (String × Value) :=
  ("message", .text event.message) :: event.details.map fun item => (item.1, item.2.toValue)

end Event

end Overlay
