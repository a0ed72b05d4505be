import Overlay.Node.Gossip
import Overlay.Node.Ping

/-!
Connections from outside: the first byte tells which service answers.
-/

set_option autoImplicit false

namespace Overlay.Node

open Attempt

/-- Answers on a stream whose tag was read. -/
def dispatch (tag : Wire.ServiceTag) (stream : StreamId) (outer : Option Limit) :
    Attempt Node Unit :=
  match tag with
  | .gossip => serveGossip stream outer
  | .vivaldi => serveEcho stream outer
  | .nodeInfo => serveRecord stream outer

/-- Reads the tag of a new stream and answers. An unknown tag is not answered at all. -/
def accept (stream : StreamId) : Attempt Node Unit := do
  let settings := (← get).settings
  let limit ← limit .inbound settings.patience none
  let byte ← receiveByte stream limit
  match Wire.ServiceTag.ofByte byte with
  | .ok tag => dispatch tag stream (some limit)
  | .error fault => do
    perform (Program.report (.unknownTag byte))
    throw (.wire fault)

end Overlay.Node
