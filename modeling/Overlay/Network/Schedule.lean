import Overlay.Network.Request

/-!
Which worker runs when.

The visitor runs when it can and no other worker can, or after a number of others have run. Time
passes only while no worker can run, straight to the next alarm.
-/

set_option autoImplicit false

namespace Overlay.Network

variable {α : Type}

/-- Runs a program until it is done or has to wait. -/
def run (worker : WorkerId) (index : Nat) :
    Program Node α → Progress → Network → Except (Suspended α) α × Network
  | .done value, _, network => (.ok value, network)
  | .get next, progress, network => run worker index (next (network.node index)) progress network
  | .put state next, progress, network =>
    run worker index next progress (network.setNode index state)
  | .ask request next, progress, network =>
    match network.handle worker index progress request with
    | (.ready reply, network) => run worker index (next reply) .fresh network
    | (.blocked progress, network) => (.error ⟨.ask request next, progress⟩, network)

/-- Keeps what is left of a job. A job that is over lets the visitor look whether it waited for
it. -/
def setTurn (network : Network) (worker : WorkerId) (turn : Option (Suspended (Option Job))) :
    Network :=
  let network := { network with
    workers := network.workers.modify (place worker) fun held => { held with turn } }
  if turn.isNone then network.rouse visitor else network

/-- The number of turns that a job may take in a row before others run. -/
def turnsInRow : Nat := 1000

/-- Runs a job, turn after turn, until it has to wait or is over. -/
def runJob (worker : WorkerId) (index : Nat) :
    Nat → Suspended (Option Job) → Network → Network
  | 0, turn, network => (network.setTurn worker (some turn)).rouse worker
  | turns + 1, turn, network =>
    match run worker index turn.program turn.progress network with
    | (.ok (some next), network) =>
      runJob worker index turns ⟨Node.turn next, .fresh⟩ network
    | (.ok none, network) => network.setTurn worker none
    | (.error waiting, network) => network.setTurn worker (some waiting)

/-- Runs one worker that can run. -/
def runWorker (network : Network) (worker : WorkerId) : Network :=
  match network.workers[place worker]? with
  | some ⟨index, some turn⟩ => runJob worker index turnsInRow turn network
  | _ => network

/-- The number of workers that run before the visitor may run again. -/
def workersInRow : Nat := 61

/-- Runs up to a number of workers. The answer tells whether there were no more of them. -/
def runReady : Nat → Network → Bool × Network
  | 0, network => (false, network)
  | count + 1, network =>
    match network.ready with
    | [] => (true, network)
    | worker :: rest => runReady count ({ network with ready := rest }.runWorker worker)

/-- One look of the visitor, if it can run: its answer, or what is left of its program. -/
def runVisitor (index : Nat) (visit : Suspended α) (network : Network) :
    Except (Suspended α) α × Network :=
  if network.visitorReady then
    run visitor index visit.program visit.progress { network with visitorReady := false }
  else (.error visit, network)

/-- Runs the network until the visitor is done. There is no answer if it waits for what never
comes, or if the given number of looks is not enough. -/
def drive (index : Nat) : Nat → Suspended α → Network → Option α × Network
  | 0, _, network => (none, network)
  | looks + 1, visit, network =>
    match runVisitor index visit network with
    | (.ok value, network) => (some value, network)
    | (.error visit, network) =>
      match runReady workersInRow network with
      | (false, network) => drive index looks visit network
      | (true, network) =>
        if network.visitorReady then drive index looks visit network
        else match network.advance with
          | some network => drive index looks visit network
          | none => (none, network)

/-- The number of looks that a visit is given. -/
def patience : Nat := 10000000

/-- Lets the visitor run a program on a node. -/
def visit (network : Network) (index : Nat) (program : Program Node α) : Option α × Network :=
  drive index patience ⟨program, .fresh⟩ { network with visitorReady := true }

end Overlay.Network
