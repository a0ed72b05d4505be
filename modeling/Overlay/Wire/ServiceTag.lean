import Overlay.Failure

/-!
The first byte of a connection, which tells the service that is wanted.
-/

set_option autoImplicit false

namespace Overlay.Wire

/-- The services of a node. -/
inductive ServiceTag
  | gossip
  | vivaldi
  | nodeInfo
deriving DecidableEq, Inhabited, Repr

namespace ServiceTag

def byte : ServiceTag → UInt8
  | .gossip => 1
  | .vivaldi => 2
  | .nodeInfo => 3

def name : ServiceTag → String
  | .gossip => "gossip"
  | .vivaldi => "vivaldi"
  | .nodeInfo => "nodeinfo"

def ofByte : UInt8 → Except WireFault ServiceTag
  | 1 => .ok .gossip
  | 2 => .ok .vivaldi
  | 3 => .ok .nodeInfo
  | other => .error (.unknownService other)

end ServiceTag

/-- The byte with which a node's record is asked for. -/
def recordRequest : UInt8 := 1

end Overlay.Wire
