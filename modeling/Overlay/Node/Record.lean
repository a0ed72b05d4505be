import Overlay.Node.State

/-!
Asking a node for its record, and answering that question.
-/

set_option autoImplicit false

namespace Overlay.Node

open Attempt

/-- Asks the node at an address for its record. -/
def requestRecord (address : SocketAddress) (patience : Duration) (maximum : Nat) :
    Attempt Node PeerRecord := do
  let limit ← limit .infoRequest patience none
  connected address .nodeInfo patience limit fun stream => do
    send stream [Wire.recordRequest] limit
    receiveFrame Wire.Layout.peerRecord stream maximum limit

/-- Answers on a stream whose tag was read. -/
def serveRecord (stream : StreamId) (outer : Option Limit) : Attempt Node Unit := do
  let settings := (← get).settings
  let limit ← limit .infoResponse settings.patience outer
  let byte ← receiveByte stream limit
  if byte != Wire.recordRequest then
    perform (Program.report (.unknownOpcode byte))
    throw (.wire (.unknownOpcode byte))
  else
    sendFrame Wire.Layout.peerRecord stream (← get).record settings.maxMessageBytes.toNat limit

/-- A peer from outside the caches, if one can be had now. -/
def bootstrapPeer : Program Node (Option PeerRecord) := do
  let node ← get
  match node.bootstrap with
  | .none => pure none
  | .records all next => do
    set { node with bootstrap := .records all (next + 1) }
    pure all[next % all.length]?
  | .addresses [] => pure none
  | .addresses all => do
    let place ← draw (Dice.index all.length)
    let address := all[place]?.getD node.record.address
    let settings := node.settings
    let result ← (reporting (.bootstrapUnavailable address)
      (requestRecord address settings.patience settings.maxMessageBytes.toNat)).run
    pure result.toOption

end Overlay.Node
