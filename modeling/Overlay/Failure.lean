import Overlay.Decimal.Shortest
import Overlay.Peer
import Overlay.Vivaldi

/-!
Everything that can go wrong in a node, as causes, and the wording of each cause.
-/

set_option autoImplicit false

namespace Overlay

/-- How a byte stream broke. -/
inductive StreamCause
  /-- The other side closed the stream before everything was read. -/
  | ended
  /-- The other side no longer reads. -/
  | broken
  | other
deriving DecidableEq, Inhabited, Repr

/-- A broken stream with the wording of the moment. -/
structure StreamFault where
  cause : StreamCause
  wording : String
deriving DecidableEq, Inhabited, Repr

namespace StreamFault

/-- A number was still to be read. -/
def endInNumber : StreamFault := ⟨.ended, "unexpected end of file"⟩

/-- A block of known length was still to be read. -/
def endInBlock : StreamFault := ⟨.ended, "early eof"⟩

def brokenPipe : StreamFault := ⟨.broken, "broken pipe"⟩

end StreamFault

/-- Why no stream to a peer could be had. -/
inductive TransportFault
  | refused (address : SocketAddress) (reason : String)
  | timedOut (address : SocketAddress)
  | stream (fault : StreamFault)
deriving DecidableEq, Inhabited, Repr

/-- Why a message could not be sent or understood. -/
inductive WireFault
  | stream (fault : StreamFault)
  | tooLarge (size limit : Nat)
  | notWritable (reason : String)
  | notReadable (reason : String)
  | unknownService (byte : UInt8)
  | unknownOpcode (byte : UInt8)
deriving DecidableEq, Inhabited, Repr

/-- Why a settings document is refused. -/
inductive SettingsFault
  | unreadable (reason : String)
  | malformed (reason : String)
  | invalid (field reason : String)
deriving DecidableEq, Inhabited, Repr

/-- The activities that are given a time limit. -/
inductive Activity
  | exchange
  | gossipRequest
  | gossipReply
  | ping
  | echo
  | infoRequest
  | infoResponse
  | inbound
deriving DecidableEq, Inhabited, Repr

/-- Why an operation of a node failed. -/
inductive Failure
  | transport (fault : TransportFault)
  | wire (fault : WireFault)
  | identityMismatch (expected actual : PeerId)
  | unknownAlgorithm (name : String)
  | unexpectedMessage (detail : String)
  | echoMismatch (sent received : UInt8)
  | invalidSample (detail : String)
  | timeout (activity : Activity)
  | settings (fault : SettingsFault)
deriving DecidableEq, Inhabited, Repr

namespace TransportFault

def message : TransportFault → String
  | .refused address reason => "connection to " ++ address.text ++ " failed: " ++ reason
  | .timedOut address => "connection to " ++ address.text ++ " timed out"
  | .stream fault => "I/O error: " ++ fault.wording

end TransportFault

namespace WireFault

def message : WireFault → String
  | .stream fault => "I/O error: " ++ fault.wording
  | .tooLarge size limit =>
    "message of " ++ toString size ++ " bytes exceeds limit of " ++ toString limit
  | .notWritable reason => "encoding failed: " ++ reason
  | .notReadable reason => "decoding failed: " ++ reason
  | .unknownService byte => "unknown service tag: " ++ Hexadecimal.ofByte byte
  | .unknownOpcode byte => "unknown opcode: " ++ Hexadecimal.ofByte byte

/-- Whether the peer simply closed the stream. -/
def isEndOfStream : WireFault → Bool
  | .stream fault => fault.cause == .ended
  | _ => false

end WireFault

namespace SettingsFault

def message : SettingsFault → String
  | .unreadable reason => "failed to read config file: " ++ reason
  | .malformed reason => "failed to parse config: " ++ reason
  | .invalid field reason => "invalid config value for " ++ field ++ ": " ++ reason

end SettingsFault

namespace Activity

def name : Activity → String
  | .exchange => "gossip exchange"
  | .gossipRequest => "gossip request"
  | .gossipReply => "gossip reply"
  | .ping => "vivaldi ping"
  | .echo => "vivaldi echo"
  | .infoRequest => "node-info request"
  | .infoResponse => "node-info response"
  | .inbound => "inbound connection"

end Activity

namespace Failure

def message : Failure → String
  | .transport fault => "transport error: " ++ fault.message
  | .wire fault => "wire error: " ++ fault.message
  | .identityMismatch expected actual =>
    "identity mismatch: expected " ++ expected.text ++ ", got " ++ actual.text
  | .unknownAlgorithm name => "unknown gossip algorithm: " ++ name
  | .unexpectedMessage detail => "unexpected message: " ++ detail
  | .echoMismatch sent received =>
    "echo mismatch: sent " ++ toString sent.toNat ++ ", received " ++ toString received.toNat
  | .invalidSample detail => "invalid latency sample: " ++ detail
  | .timeout activity => "operation timed out: " ++ activity.name
  | .settings fault => "configuration error: " ++ fault.message

end Failure

namespace WireFault

/-- A short name of the kind of fault, for programs. -/
def code : WireFault → String
  | .stream _ => "wire.io"
  | .tooLarge .. => "wire.message_too_large"
  | .notWritable _ => "wire.encode"
  | .notReadable _ => "wire.decode"
  | .unknownService _ => "wire.unknown_service"
  | .unknownOpcode _ => "wire.unknown_opcode"

end WireFault

namespace SettingsFault

/-- A short name of the kind of fault, for programs. -/
def code : SettingsFault → String
  | .unreadable _ => "config.io"
  | .malformed _ => "config.parse"
  | .invalid .. => "config.invalid"

end SettingsFault

namespace Failure

/-- A short name of the kind of failure, for programs. -/
def code : Failure → String
  | .transport (.refused ..) => "transport.connect_failed"
  | .transport (.timedOut _) => "transport.timeout"
  | .transport (.stream _) => "transport.io"
  | .wire fault => fault.code
  | .identityMismatch .. => "identity_mismatch"
  | .unknownAlgorithm _ => "unknown_algorithm"
  | .unexpectedMessage _ => "unexpected_message"
  | .echoMismatch .. => "echo_mismatch"
  | .invalidSample _ => "invalid_sample"
  | .timeout _ => "timeout"
  | .settings fault => fault.code

end Failure

/-- A refused sample as a failure. -/
def Vivaldi.Rejection.failure : Vivaldi.Rejection Binary64 → Failure
  | .roundTrip measured => .invalidSample ("rtt " ++ measured.shortest)
  | .remoteNotFinite => .invalidSample "remote coordinate is not finite"

end Overlay
