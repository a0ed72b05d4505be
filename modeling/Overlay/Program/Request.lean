import Overlay.Duration
import Overlay.Event
import Overlay.Wire.Layout
import Overlay.Wire.ServiceTag

/-!
What a program asks of the world around it, and the answers it may get.

Time is counted in milliseconds. A moment also carries its turn among the moments of one
millisecond, so that alarms that are due together go off in the order in which they were set.
-/

set_option autoImplicit false

namespace Overlay

/-- A moment in time. -/
structure Instant where
  tick : Nat
  turn : Nat
deriving DecidableEq, Inhabited, Repr

namespace Instant

/-- The moment a span later; it keeps its turn. -/
def after (moment : Instant) (span : Duration) : Instant :=
  { moment with tick := moment.tick + span.ticks }

/-- Whether a moment comes before another one. -/
def isBefore (left right : Instant) : Bool :=
  decide (left.tick < right.tick ∨ (left.tick = right.tick ∧ left.turn < right.turn))

end Instant

/-- One end of a byte stream. -/
structure StreamId where
  number : Nat
deriving DecidableEq, Inhabited, Repr

/-- A job that runs beside others. -/
structure WorkerId where
  number : Nat
deriving DecidableEq, Inhabited, Repr

/-- What a waiting job can be roused by. -/
inductive Signal
  /-- A tracker is asked to ping now. It rouses once; unheard, it is kept for the next wait. -/
  | pingNow (tracker : Nat)
  /-- A tracker has been ended, for good. -/
  | trackerEnd (tracker : Nat)
  /-- A group of loops has been stopped, for good. -/
  | shutdown (group : Nat)
deriving DecidableEq, Inhabited, Repr

namespace Signal

/-- Whether hearing the signal uses it up. -/
def isMomentary : Signal → Bool
  | .pingNow _ => true
  | _ => false

end Signal

/-- The bytes with which a scripted peer opens, and how it goes on. -/
inductive Manner
  /-- Each byte comes back with a fixed amount added, the first ones after given delays. -/
  | echo (amount : UInt8) (delays : List Duration)
  /-- The stream stays open, silently. -/
  | hang
  /-- Nothing more is sent, and everything that arrives is ignored. -/
  | close
deriving DecidableEq, Inhabited, Repr

/-- The work that runs beside other work. -/
inductive Job
  /-- The rounds of one algorithm, from the announcement on. -/
  | gossip (algorithm : Algorithm) (group : Nat)
  | gossipRound (algorithm : Algorithm) (group : Nat)
  | refinement (group : Nat)
  | maintenance (group : Nat)
  | reporter (interval : Duration) (group : Nat)
  /-- Taking in connections at an address, from the announcement on. -/
  | acceptor (address : SocketAddress) (group : Nat)
  | listening (group : Nat)
  | tracker (serial : Nat)
  /-- The answering side of a connection. -/
  | serve (tag : Wire.ServiceTag) (stream : StreamId)
  /-- The answering side of a connection to a scripted peer. -/
  | script (opening : Wire.Bytes) (manner : Manner) (stream : StreamId)
  | scriptedReply (manner : Manner) (stream : StreamId)
deriving Inhabited, Repr

/-- How a connection attempt ended. -/
inductive Connecting
  | opened (stream : StreamId)
  | failed (fault : TransportFault)
  | expired
deriving DecidableEq, Inhabited, Repr

/-- How reading ended. -/
inductive Reading
  | bytes (content : Wire.Bytes)
  | ended
  | expired
deriving DecidableEq, Inhabited, Repr

/-- How writing ended. -/
inductive Writing
  | written
  | broken
  | expired
deriving DecidableEq, Inhabited, Repr

/-- How a pause ended. -/
inductive Pausing
  | elapsed
  | heard (signal : Signal)
deriving DecidableEq, Inhabited, Repr

/-- What a program may ask for. -/
inductive Request
  /-- The moment it is. -/
  | moment
  /-- A stream to the service of that tag at an address; the network itself gives up after
  `patience`, the program at its deadline. -/
  | connect (address : SocketAddress) (tag : Wire.ServiceTag) (patience : Duration)
      (deadline : Instant)
  /-- Exactly `count` bytes of a stream, until the deadline if there is one. -/
  | read (stream : StreamId) (count : Nat) (deadline : Option Instant)
  /-- All these bytes into a stream, until the deadline if there is one. -/
  | write (stream : StreamId) (bytes : Wire.Bytes) (deadline : Option Instant)
  /-- No more bytes into a stream, which is still read. -/
  | finish (stream : StreamId)
  /-- No more of a stream at all. -/
  | close (stream : StreamId)
  /-- A wait that the given signals cut short. -/
  | pause (span : Duration) (signals : List Signal)
  | raise (signal : Signal)
  | launch (job : Job)
  /-- A wait for the end of jobs. -/
  | join (workers : List WorkerId)
  | report (event : Event)
deriving Inhabited

namespace Request

/-- The answer to a request. -/
abbrev Reply : Request → Type
  | .moment => Instant
  | .connect .. => Connecting
  | .read .. => Reading
  | .write .. => Writing
  | .pause .. => Pausing
  | .launch _ => WorkerId
  | .finish _ | .close _ | .raise _ | .join _ | .report _ => Unit

end Request

end Overlay
