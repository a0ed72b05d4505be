import Overlay.Decimal.Shortest
import Overlay.Distance
import Overlay.Wire.Bodies

/-!
What a node measures about itself, and its text exposition.

Counters only grow; gauges hold the last value. Those with one series per algorithm are shown only
if they have a series.
-/

set_option autoImplicit false

namespace Overlay

/-- Values by label. -/
abbrev Series (α : Type) := List (String × α)

namespace Series

variable {α : Type}

def get? (series : Series α) (label : String) : Option α :=
  (series.find? (·.1 == label)).map Prod.snd

/-- Sets the value of a label. -/
def set (series : Series α) (label : String) (value : α) : Series α :=
  match series with
  | [] => [(label, value)]
  | first :: rest =>
    if first.1 == label then (label, value) :: rest else first :: Series.set rest label value

end Series

/-- The measurements of a node. -/
structure Metrics where
  exchanges : Series UInt64
  failures : Series UInt64
  cacheSize : Series Int
  networkSize : Series Int
  neighbors : Int
  nearest : Binary64
  norm : Binary64
  error : Binary64
deriving Inhabited, Repr

/-- What is measured at one moment. -/
structure Snapshot where
  stats : List Stats
  neighbors : UInt64
  nearest : Distance
  norm : Binary64
  error : Binary64
deriving Inhabited, Repr

namespace Metrics

/-- Nothing measured yet. -/
def empty : Metrics := ⟨[], [], [], [], 0, .zero, .zero, .zero⟩

/-- Raises a counter to a total; a smaller total changes nothing. -/
def raise (series : Series UInt64) (label : String) (total : UInt64) : Series UInt64 :=
  series.set label (max total ((series.get? label).getD 0))

/-- A count as a gauge shows it: in sixty-four bits with a sign. -/
def gauge (count : UInt64) : Int := count.toInt64.toInt

/-- Takes in what one algorithm reports. -/
def recordStats (metrics : Metrics) (stats : Stats) : Metrics :=
  { metrics with
    exchanges := raise metrics.exchanges stats.algorithm stats.exchanges
    failures := raise metrics.failures stats.algorithm stats.failures
    cacheSize := metrics.cacheSize.set stats.algorithm (gauge stats.cacheSize)
    networkSize := metrics.networkSize.set stats.algorithm (gauge stats.networkSize) }

/-- Takes in a snapshot. A nearest distance that is not measured counts as infinite. -/
def record (metrics : Metrics) (snapshot : Snapshot) : Metrics :=
  let counted := snapshot.stats.foldl recordStats metrics
  { counted with
    neighbors := gauge snapshot.neighbors
    nearest := match snapshot.nearest with
      | .millis value => value
      | _ => .infinity
    norm := snapshot.norm
    error := snapshot.error }

/-- A whole number as a double. -/
def ofInt (number : Int) : Binary64 :=
  match number with
  | .ofNat magnitude => .ofNat magnitude
  | .negSucc below => .zero - .ofNat (below + 1)

/-- A label between quotes: backslashes, quotes and line breaks are escaped. -/
def escaped (label : String) : String :=
  String.join (label.toList.map fun char =>
    match char with
    | '\\' => "\\\\"
    | '"' => "\\\""
    | '\n' => "\\n"
    | other => other.toString)

/-- One family of the exposition; a sample has a label or none. -/
structure Family where
  name : String
  help : String
  kind : String
  samples : List (Option String × Binary64)

/-- The samples of a series, by label. -/
def labelled {α : Type} (value : α → Binary64) (series : Series α) :
    List (Option String × Binary64) :=
  (series.mergeSort fun left right => decide (left.1 ≤ right.1)).map fun item =>
    (some item.1, value item.2)

/-- All families, by name. -/
def families (metrics : Metrics) : List Family :=
  let count := fun (number : UInt64) => Binary64.ofNat number.toNat
  [⟨"grid_cluster_nearest_distance_ms", "Measured RTT to the nearest neighbor in milliseconds",
      "gauge", [(none, metrics.nearest)]⟩,
    ⟨"grid_cluster_neighbors", "Neighbors currently tracked, candidates in probation included",
      "gauge", [(none, ofInt metrics.neighbors)]⟩,
    ⟨"grid_gossip_cache_size", "Entries in the gossip peer cache", "gauge",
      labelled ofInt metrics.cacheSize⟩,
    ⟨"grid_gossip_exchanges_total", "Completed gossip exchanges", "counter",
      labelled count metrics.exchanges⟩,
    ⟨"grid_gossip_failures_total", "Gossip rounds abandoned after a failed exchange", "counter",
      labelled count metrics.failures⟩,
    ⟨"grid_gossip_network_size_estimate",
      "Distinct peers observed in recently received gossip payloads", "gauge",
      labelled ofInt metrics.networkSize⟩,
    ⟨"grid_vivaldi_coordinate_norm", "Euclidean norm of the local Vivaldi coordinate", "gauge",
      [(none, metrics.norm)]⟩,
    ⟨"grid_vivaldi_error", "Smoothed relative prediction error of the local coordinate", "gauge",
      [(none, metrics.error)]⟩]

/-- One line of the exposition. -/
def sampleLine (name : String) (sample : Option String × Binary64) : String :=
  let labels := match sample.1 with
    | some label => "\x7balgorithm=\"" ++ escaped label ++ "\"\x7d"
    | none => ""
  name ++ labels ++ " " ++ sample.2.shortest ++ "\n"

/-- The exposition: for each family that has samples its help, its kind and the samples. -/
def exposition (metrics : Metrics) : String :=
  String.join ((metrics.families.filter (!·.samples.isEmpty)).map fun family =>
    "# HELP " ++ family.name ++ " " ++ family.help ++ "\n# TYPE " ++ family.name ++ " "
      ++ family.kind ++ "\n" ++ String.join (family.samples.map (sampleLine family.name)))

end Metrics

end Overlay
