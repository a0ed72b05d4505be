import Overlay.Network.State

/-!
How a network answers the requests of its workers.

A worker that cannot be answered yet is left waiting, with alarms for the moments that matter to
it. What it waits for is looked at before its deadline, so a wait that ends exactly at the
deadline ends in time.
-/

set_option autoImplicit false

namespace Overlay.Network

/-- The answer to a request, or how far it has come. -/
inductive Outcome (α : Type)
  | ready (reply : α)
  | blocked (progress : Progress)

variable {α : Type}

/-- Answers. -/
def answer (network : Network) (reply : α) : Outcome α × Network := (.ready reply, network)

/-- Leaves the worker waiting, until the deadline at most; then the answer is `expired`. -/
def wait (network : Network) (worker : WorkerId) (progress : Progress) (dues : List Instant)
    (deadline : Option Instant) (expired : α) : Outcome α × Network :=
  match deadline with
  | some moment =>
    if network.isPast moment then (.ready expired, network.setAlarms worker [])
    else (.blocked progress, network.setAlarms worker (dues ++ [moment]))
  | none => (.blocked progress, network.setAlarms worker dues)

/-- Reads on after the latency of the stream is over. -/
def readAvailable (network : Network) (stream : StreamId) (missing : Nat) :
    Option Wire.Bytes × Network :=
  let index := (network.streamEnd stream).incoming
  let pipe := network.pipe index
  if pipe.content.isEmpty then (none, network)
  else
    let (bytes, rest) := pipe.take missing
    (some bytes, (network.setPipe index rest).rouse? pipe.writer)

/-- Takes note of who waits for bytes. -/
def expectBytes (network : Network) (worker : WorkerId) (stream : StreamId) : Network :=
  let index := (network.streamEnd stream).incoming
  network.setPipe index { network.pipe index with reader := some worker }

/-- Reads until `count` bytes are there; every portion takes the latency of the stream. -/
def read (worker : WorkerId) (stream : StreamId) (count : Nat) (deadline : Option Instant) :
    Nat → Progress → Network → Outcome Reading × Network
  | 0, progress, network => (.blocked progress, network)
  | portions + 1, progress, network =>
    match progress with
    | .delayed received due =>
      if network.isPast due then
        read worker stream count deadline portions (.reading received) network
      else network.wait worker progress [due] deadline .expired
    | .reading received =>
      match network.readAvailable stream (count - received.length) with
      | (some bytes, network) =>
        let received := received ++ bytes
        if count ≤ received.length then
          (network.setAlarms worker []).answer (.bytes received)
        else
          let (now, network) := network.now
          let latency := (network.streamEnd stream).latency
          read worker stream count deadline portions
            (.delayed received { now with tick := now.tick + latency }) network
      | (none, network) =>
        if (network.pipe (network.streamEnd stream).incoming).isClosed then
          (network.setAlarms worker []).answer .ended
        else (network.expectBytes worker stream).wait worker progress [] deadline .expired
    | _ =>
      if count = 0 then network.answer (.bytes [])
      else
        let (now, network) := network.now
        let latency := (network.streamEnd stream).latency
        read worker stream count deadline portions
          (.delayed [] { now with tick := now.tick + latency }) network

/-- Writes as much as fits. -/
def write (network : Network) (worker : WorkerId) (stream : StreamId) (bytes : Wire.Bytes)
    (deadline : Option Instant) : Outcome Writing × Network :=
  let index := (network.streamEnd stream).outgoing
  let pipe := network.pipe index
  if bytes.isEmpty then network.answer .written
  else if pipe.isClosed then (network.setAlarms worker []).answer .broken
  else
    let fitting := pipe.room bytes
    let network := if fitting = 0 then network else network.putBytes index (bytes.take fitting)
    if fitting = bytes.length then (network.setAlarms worker []).answer .written
    else
      let pipe := { network.pipe index with writer := some worker }
      (network.setPipe index pipe).wait worker (.writing (bytes.drop fitting)) [] deadline .expired

/-- Why an address cannot be reached. -/
def refusal (address : SocketAddress) (reason : String) : Connecting :=
  .failed (.refused address reason)

/-- Opens a stream from a node to whoever runs the given job at its other end. -/
def openTo (network : Network) (node latency : Nat) (job : StreamId → Job) :
    Outcome Connecting × Network :=
  let ((near, far), network) := network.openStream (some pipeCapacity) latency
  let (_, network) := network.launch node (job far)
  network.answer (.opened near)

/-- Connects a node to an address: to a scripted peer if there is one, and else to a node. -/
def connect (network : Network) (worker : WorkerId) (node : Nat) (address : SocketAddress)
    (tag : Wire.ServiceTag) (patience : Duration) (deadline : Instant) :
    Outcome Connecting × Network :=
  let network := { network with
    connections := ⟨node, address, tag, patience⟩ :: network.connections }
  match network.scripted.lookup address with
  | some (.refuses reason) => network.answer (refusal address reason)
  | some .silent =>
    let (now, network) := network.now
    let due := now.after patience
    if network.isPast due then network.answer (.failed (.timedOut address))
    else network.wait worker (.waiting due) [due] (some deadline) .expired
  | some (.talks opening manner latency) =>
    network.openTo node latency (.script opening manner)
  | none =>
    if address ∈ network.down then network.answer (refusal address "connection refused")
    else match network.directory.lookup address with
      | some target =>
        network.openTo target ((network.latencies.lookup address).getD 0) (.serve tag)
      | none => network.answer (refusal address "connection refused")

/-- Forgets what a worker listens to. A momentary signal that it was given and did not hear rings
on. -/
def unlisten (network : Network) (worker : WorkerId) (heard : Option Signal) : Network :=
  let (own, others) := network.listeners.partition (·.worker = worker)
  let unheard := (own.filter fun listener =>
    listener.rung && some listener.bell.signal != heard).map (·.bell)
  { network with
    listeners := others
    ringing := network.ringing ++ unheard.filter (· ∉ network.ringing) }

/-- The first of the signals that a worker can hear now. -/
def audible (network : Network) (worker : WorkerId) (node : Nat) (signals : List Signal) :
    Option Signal :=
  signals.find? fun signal =>
    ⟨node, signal⟩ ∈ network.ringing
      || network.listeners.any fun listener =>
        listener.worker = worker && listener.rung && listener.bell.signal = signal

/-- Hears a signal: one that was given to the worker, or one that rings; a momentary one then
stops. -/
def hear (network : Network) (worker : WorkerId) (node : Nat) (signal : Signal) : Network :=
  let bell : Bell := ⟨node, signal⟩
  let wasGiven := network.listeners.any fun listener =>
    listener.worker = worker && listener.rung && listener.bell = bell
  let network := network.unlisten worker (some signal)
  if signal.isMomentary && !wasGiven then
    { network with ringing := network.ringing.filter (· ≠ bell) }
  else network

/-- Waits for a moment or a signal. -/
def pauseUntil (network : Network) (worker : WorkerId) (node : Nat) (due : Instant)
    (signals : List Signal) : Outcome Pausing × Network :=
  if network.isPast due then ((network.unlisten worker none).setAlarms worker []).answer .elapsed
  else match network.audible worker node signals with
    | some signal => ((network.hear worker node signal).setAlarms worker []).answer (.heard signal)
    | none =>
      let isListening := network.listeners.any (·.worker = worker)
      let listeners :=
        if isListening then network.listeners
        else network.listeners ++ signals.map fun signal => ⟨⟨node, signal⟩, worker, false⟩
      { network with listeners }.wait worker (.waiting due) [due] none .elapsed

/-- Answers a request of a worker of a node, as far as it has come. -/
def handle (network : Network) (worker : WorkerId) (node : Nat) (progress : Progress) :
    (request : Request) → Outcome request.Reply × Network
  | .moment =>
    let (now, network) := network.now
    network.answer now
  | .connect address tag patience deadline =>
    match progress with
    | .waiting due =>
      if network.isPast due then
        (network.setAlarms worker []).answer (.failed (.timedOut address))
      else network.wait worker progress [due] (some deadline) .expired
    | _ => network.connect worker node address tag patience deadline
  | .read stream count deadline =>
    read worker stream count deadline (2 * count + 2) progress network
  | .write stream bytes deadline =>
    match progress with
    | .writing left => network.write worker stream left deadline
    | _ => network.write worker stream bytes deadline
  | .finish stream => (network.closePipe (network.streamEnd stream).outgoing).answer ()
  | .close stream => (network.closeStream stream).answer ()
  | .pause span signals =>
    match progress with
    | .waiting due => network.pauseUntil worker node due signals
    | _ =>
      let (now, network) := network.now
      network.pauseUntil worker node (now.after span) signals
  | .raise signal => (network.ring ⟨node, signal⟩).answer ()
  | .launch job =>
    let (started, network) := network.launch node job
    network.answer started
  | .join workers =>
    if workers.all network.isOver then network.answer ()
    else (.blocked .fresh, network)
  | .report event => { network with events := event :: network.events }.answer ()

end Overlay.Network
