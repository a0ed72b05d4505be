import Overlay.Node.Job
import Overlay.Proofs.Program.Run
import Overlay.Proofs.Source

/-!
The pace of a node: what its jobs wait for, and what they leave alone.

Whatever a node does, its settings stay as they are, and its random choices come from the same
source. Conversations, rounds and passes set no timer. The turns of loops do, and those are drawn
from the interval of the loop (`observes_turn`).
-/

set_option autoImplicit false

namespace Overlay.Node

open Attempt Chance Program Surroundings

/-- The timer that a request arms. -/
def timer? : Request → Option Duration
  | .pause span _ => some span
  | _ => none

/-- The interval between the turns of a loop that runs in the background, before jitter. -/
def interval? (settings : Settings) : Job → Option Duration
  | .gossip .. | .gossipRound .. => some settings.gossipPause
  | .refinement _ => some settings.vivaldiPause
  | .maintenance _ => some settings.clusterPause
  | .tracker _ => some settings.neighborPause
  | _ => none

/-- What a node works with, and the timers that it may arm. -/
structure Pace where
  settings : Settings
  /-- The fractions that are drawn. -/
  portion : DrawCount → Binary64
  allows : Duration → Prop

/-- A node works with what the pace tells. -/
structure Equipped (pace : Pace) (node : Node) : Prop where
  settings : node.settings = pace.settings
  portion : node.dice.portion = pace.portion

namespace Pace

/-- A node among others that change neither its settings nor its source. -/
def world (pace : Pace) : Surroundings Node Node where
  look := id
  leave _ node := node
  Answers _ _ _ after := Equipped pace after
  Accepts node _ := Equipped pace node
  Admits request _ := ∀ span, timer? request = some span → pace.allows span

/-- Whatever goes on beside it, the program changes neither the settings of a node nor its source,
and arms no other timers than it may. -/
def Observes {α : Type} (pace : Pace) (program : Program Node α) : Prop :=
  ∀ now, Equipped pace now → pace.world.Keeps program (fun _ after => Equipped pace after) now

variable {pace : Pace} {α β : Type}

section Rules

theorem observes_pure (value : α) : Observes pace (pure value) := fun _ equipped => equipped

theorem Observes.bind {program : Program Node α} {next : α → Program Node β}
    (first : Observes pace program) (rest : ∀ value, Observes pace (next value)) :
    Observes pace (program >>= next) := by
  intro now equipped
  rw [keeps_bind]
  exact (first now equipped).mono fun value after equipped => rest value after equipped

theorem observes_ite {condition : Prop} [Decidable condition] {yes no : Program Node α}
    (left : Observes pace yes) (right : Observes pace no) :
    Observes pace (if condition then yes else no) := by
  split
  · exact left
  · exact right

theorem observes_get {next : Node → Program Node α}
    (rest : ∀ node, Equipped pace node → Observes pace (next node)) :
    Observes pace (get >>= next) := by
  intro now equipped
  rw [keeps_bind]
  exact rest now equipped now equipped

theorem observes_set {node : Node} (equipped : Equipped pace node) : Observes pace (set node) :=
  fun _ _ => ⟨equipped, equipped⟩

theorem observes_modify {change : Node → Node}
    (keeps : ∀ node, Equipped pace node → Equipped pace (change node)) :
    Observes pace (modify change) :=
  fun now equipped => ⟨keeps now equipped, keeps now equipped⟩

theorem observes_request {request : Request} (untimed : timer? request = none) :
    Observes pace (Program.request request) := by
  refine fun now _ => ⟨fun span timed => ?_, fun _ _ equipped => equipped⟩
  cases untimed.symm.trans timed

theorem observes_pause {span : Duration} (allowed : pace.allows span) (signals : List Signal) :
    Observes pace (Program.pause span signals) := by
  refine fun now _ => ⟨?_, fun _ _ equipped => equipped⟩
  rintro _ ⟨⟩
  exact allowed

theorem observes_forM {items : List α} {each : α → Program Node PUnit}
    (one : ∀ item, Observes pace (each item)) : Observes pace (items.forM each) :=
  fun _ equipped => keeps_forM _ equipped (fun item _ => one item) fun _ => id

theorem observes_draw {chance : Chance α} (keeps : chance.KeepsSource) :
    Observes pace (draw chance) := by
  intro now equipped
  have drawn : Equipped pace { now with dice := (chance now.dice).2 } :=
    ⟨equipped.settings, (keeps _).trans equipped.portion⟩
  exact ⟨drawn, drawn⟩

theorem observes_onEngine {algorithm : Algorithm} {change : Engine → Chance (α × Engine)}
    (keeps : ∀ engine, (change engine).KeepsSource) :
    Observes pace (onEngine algorithm change) := by
  refine observes_get fun node _ => (observes_draw (keeps _)).bind fun answered => ?_
  refine (observes_modify ?_).bind fun _ => observes_pure _
  exact fun _ equipped => ⟨equipped.settings, equipped.portion⟩

theorem observes_updateEngine {algorithm : Algorithm} (change : Engine → Engine) :
    Observes pace (updateEngine algorithm change) :=
  observes_onEngine fun _ => keepsSource_pure _

theorem observes_withTracker (serial : Nat) (change : Tracker → Tracker) :
    Observes pace (modify (·.withTracker serial change)) :=
  observes_modify fun _ equipped => ⟨equipped.settings, equipped.portion⟩

end Rules

section Attempts

theorem observes_throw (failure : Failure) :
    Observes pace (throw failure : Attempt Node α).run := observes_pure _

/-- An attempt either fails or goes on. -/
theorem observes_attempt {attempt : Attempt Node α} {next : α → Attempt Node β}
    (first : Observes pace attempt.run) (rest : ∀ value, Observes pace (next value).run) :
    Observes pace (attempt >>= next).run := by
  intro now equipped
  rw [keeps_run_bind]
  refine (first now equipped).mono fun result after equipped => ?_
  cases result with
  | ok value => exact rest value after equipped
  | error failure => exact equipped

theorem observes_perform {program : Program Node α} (observes : Observes pace program) :
    Observes pace (perform program).run :=
  observes.bind fun _ => observes_pure _

/-- A program that cannot fail, and what an attempt does after it. -/
theorem Observes.perform {program : Program Node α} {next : α → Attempt Node β}
    (first : Observes pace program) (rest : ∀ value, Observes pace (next value).run) :
    Observes pace (Attempt.perform program >>= next).run :=
  observes_attempt (observes_perform first) rest

theorem observes_attempt_get {next : Node → Attempt Node α}
    (rest : ∀ node, Observes pace (next node).run) :
    Observes pace ((get : Attempt Node Node) >>= next).run :=
  observes_attempt (fun _ equipped => equipped) rest

theorem observes_attempt_modify {change : Node → Node}
    (keeps : ∀ node, Equipped pace node → Equipped pace (change node)) :
    Observes pace (modify change : Attempt Node PUnit).run :=
  fun now equipped => ⟨keeps now equipped, keeps now equipped⟩

theorem observes_limit (activity : Activity) (span : Duration) (outer : Option Limit) :
    Observes pace (limit activity span outer).run :=
  (observes_request rfl).perform fun _ => observes_pure _

theorem observes_receive (stream : StreamId) (count : Nat) (fault : StreamFault) (limit : Limit) :
    Observes pace (receive stream count fault limit).run := by
  refine (observes_request rfl).perform fun reply => ?_
  cases reply with
  | bytes content => exact observes_pure _
  | ended => exact observes_throw _
  | expired => exact observes_throw _

theorem observes_receiveByte (stream : StreamId) (limit : Limit) :
    Observes pace (receiveByte stream limit).run :=
  observes_attempt (observes_receive _ _ _ _) fun _ => observes_pure _

theorem observes_receiveFrame (layout : Wire.Layout α) (stream : StreamId) (maximum : Nat)
    (limit : Limit) : Observes pace (receiveFrame layout stream maximum limit).run := by
  refine observes_attempt (observes_receive _ _ _ _) fun header => ?_
  dsimp only
  split
  · exact observes_throw _
  · refine observes_attempt (observes_receive _ _ _ _) fun body => ?_
    split
    · exact observes_pure _
    · exact observes_throw _

theorem observes_send (stream : StreamId) (bytes : Wire.Bytes) (limit : Limit) :
    Observes pace (send stream bytes limit).run := by
  refine (observes_request rfl).perform fun reply => ?_
  cases reply with
  | written => exact observes_pure _
  | broken => exact observes_throw _
  | expired => exact observes_throw _

theorem observes_sendFrame (layout : Wire.Layout α) (stream : StreamId) (value : α)
    (maximum : Nat) (limit : Limit) :
    Observes pace (sendFrame layout stream value maximum limit).run := by
  rw [sendFrame]
  split
  · exact observes_send _ _ _
  · exact observes_throw _

theorem observes_closing {stream : StreamId} {attempt : Attempt Node α}
    (observes : Observes pace attempt.run) : Observes pace (closing stream attempt).run :=
  observes.bind fun _ => (observes_request rfl).bind fun _ => observes_pure _

theorem observes_connected {address : SocketAddress} {tag : Wire.ServiceTag}
    {patience : Duration} {limit : Limit} {attempt : StreamId → Attempt Node α}
    (observes : ∀ stream, Observes pace (attempt stream).run) :
    Observes pace (connected address tag patience limit attempt).run := by
  refine (observes_request rfl).perform fun reply => ?_
  cases reply with
  | opened stream => exact observes_closing (observes stream)
  | failed fault => exact observes_throw _
  | expired => exact observes_throw _

theorem observes_reporting {event : Failure → Event} {attempt : Attempt Node α}
    (observes : Observes pace attempt.run) : Observes pace (reporting event attempt).run := by
  refine observes.bind fun result => ?_
  cases result with
  | ok value => exact observes_pure _
  | error failure => exact (observes_request rfl).bind fun _ => observes_pure _

end Attempts

section Gossip

variable (algorithm : Algorithm)

theorem observes_requestRecord (address : SocketAddress) (patience : Duration) (maximum : Nat) :
    Observes pace (requestRecord address patience maximum).run :=
  observes_attempt (observes_limit _ _ _) fun _ => observes_connected fun _ =>
    observes_attempt (observes_send _ _ _) fun _ => observes_receiveFrame _ _ _ _

theorem observes_bootstrapPeer : Observes pace bootstrapPeer := by
  refine observes_get fun node equipped => ?_
  split
  · exact observes_pure _
  · refine (observes_set ?_).bind fun _ => observes_pure _
    exact ⟨equipped.settings, equipped.portion⟩
  · exact observes_pure _
  · refine (observes_draw (keepsSource_index _)).bind fun place => ?_
    exact (observes_reporting (observes_requestRecord _ _ _)).bind fun _ => observes_pure _

theorem observes_seedCache : Observes pace (seedCache algorithm) := by
  refine observes_get fun node equipped => observes_ite ?_ (observes_pure _)
  refine observes_bootstrapPeer.bind fun found => ?_
  cases found with
  | none => exact observes_pure _
  | some record =>
      refine observes_get fun asked _ => observes_ite ?_ (observes_pure _)
      refine (observes_request rfl).bind fun _ => observes_onEngine fun engine => ?_
      exact (keepsSource_seed _ _ _).bind fun _ => keepsSource_pure _

theorem observes_talk (target : PeerRecord) (request : Message) (patience : Duration)
    (maximum : Nat) : Observes pace (talk target request patience maximum).run :=
  observes_attempt (observes_limit _ _ _) fun _ => observes_connected fun _ =>
    observes_attempt (observes_sendFrame _ _ _ _ _) fun _ => observes_receiveFrame _ _ _ _

theorem observes_exchange (target : PeerRecord) :
    Observes pace (exchange algorithm target).run := by
  refine observes_attempt_get fun node => ?_
  refine (observes_draw (keepsSource_message _ _ _ _ _)).perform fun request => ?_
  refine observes_attempt (observes_talk _ _ _ _) fun reply => ?_
  split
  · exact observes_throw _
  · refine observes_attempt_get fun told => ?_
    refine (observes_onEngine fun engine => ?_).perform fun _ => observes_pure _
    exact (keepsSource_accept _ _ _).bind fun _ => keepsSource_pure _

theorem observes_secondTarget (failed : PeerId) :
    Observes pace (secondTarget algorithm failed) :=
  observes_get fun _ _ =>
    observes_ite (observes_draw (keepsSource_fallbackTarget _ _)) (observes_pure _)

theorem observes_retry (target : PeerRecord) : Observes pace (retry algorithm target).run := by
  refine (observes_updateEngine _).perform fun _ => ?_
  refine (observes_exchange algorithm target).perform fun result => ?_
  cases result with
  | ok received => exact observes_pure _
  | error failure =>
      refine (observes_updateEngine _).perform fun _ => ?_
      exact (observes_request rfl).perform fun _ => observes_throw _

theorem observes_attempts (target : PeerRecord) :
    Observes pace (attempts algorithm target).run := by
  refine (observes_exchange algorithm target).perform fun result => ?_
  cases result with
  | ok received => exact observes_pure _
  | error failure =>
      refine (observes_request rfl).perform fun _ => ?_
      refine (observes_secondTarget algorithm _).perform fun second => ?_
      cases second with
      | some second => exact observes_retry algorithm second
      | none => exact (observes_updateEngine _).perform fun _ => observes_throw _

theorem observes_round : Observes pace (round algorithm).run := by
  refine (observes_seedCache algorithm).perform fun _ => ?_
  have aging (engine : Engine) : KeepsSource (do
      let aged := engine.older
      pure (← aged.target, aged)) :=
    (keepsSource_target _).bind fun _ => keepsSource_pure _
  refine (observes_onEngine aging).perform fun target => ?_
  cases target with
  | none => exact (observes_request rfl).perform fun _ => observes_pure _
  | some target =>
      refine observes_attempt_get fun node => ?_
      split
      · exact observes_pure _
      · exact observes_attempts algorithm target

theorem observes_reportedRound : Observes pace (reportedRound algorithm) := by
  refine (observes_round algorithm).bind fun result => ?_
  split
  · exact observes_pure _
  · exact observes_get fun _ _ => observes_request rfl
  · exact observes_request rfl

theorem observes_answer (request : Message) : Observes pace (answer request).run := by
  have named : Observes pace (algorithmNamed request.algorithm).run := by
    refine observes_attempt_get fun node => ?_
    split
    · split
      · exact observes_pure _
      · exact observes_throw _
    · exact observes_throw _
  refine observes_attempt named fun algorithm => observes_attempt_get fun node => ?_
  have answered : Observes pace
      (onEngine algorithm fun engine => engine.answer node.record node.clock request) :=
    observes_onEngine fun engine => keepsSource_answer _ _ _ _
  split
  · exact observes_throw _
  · split
    · exact (observes_request rfl).perform fun _ => observes_perform answered
    · exact observes_perform answered

theorem observes_serveGossip (stream : StreamId) (outer : Option Limit) :
    Observes pace (serveGossip stream outer).run := by
  refine observes_attempt_get fun node => ?_
  refine observes_attempt (observes_limit _ _ _) fun reading => ?_
  refine observes_attempt (observes_receiveFrame _ _ _ _) fun request => ?_
  refine observes_attempt (observes_reporting (observes_answer request)) fun reply => ?_
  exact observes_attempt (observes_limit _ _ _) fun writing => observes_sendFrame _ _ _ _ _

theorem observes_serveRecord (stream : StreamId) (outer : Option Limit) :
    Observes pace (serveRecord stream outer).run := by
  refine observes_attempt_get fun node => observes_attempt (observes_limit _ _ _) fun limit => ?_
  refine observes_attempt (observes_receiveByte _ _) fun byte => ?_
  split
  · exact (observes_request rfl).perform fun _ => observes_throw _
  · exact observes_attempt_get fun node => observes_sendFrame _ _ _ _ _

end Gossip

section Pings

theorem observes_echo (stream : StreamId) (limit : Limit) (rounds : Nat) (next : UInt8)
    (best : Binary64) : Observes pace (echo stream limit rounds next best).run := by
  induction rounds generalizing next best with
  | zero => exact observes_pure _
  | succ rounds ih =>
      refine (observes_request rfl).perform fun before => ?_
      refine observes_attempt (observes_send _ _ _) fun _ => ?_
      refine observes_attempt (observes_receiveByte _ _) fun received => ?_
      split
      · exact observes_throw _
      · exact (observes_request rfl).perform fun after => ih _ _

theorem observes_ping (address : SocketAddress) (update : Bool) :
    Observes pace (ping address update).run := by
  have measured : Observes pace (measure address).run := by
    refine observes_attempt_get fun node => ?_
    refine observes_attempt (observes_limit _ _ _) fun limit => observes_connected fun stream => ?_
    refine observes_attempt (observes_receive _ _ _ _) fun bytes => ?_
    exact observes_attempt (observes_echo _ _ _ _ _) fun roundTrip => observes_pure _
  refine observes_attempt measured fun sample => (observes_request rfl).perform fun _ => ?_
  split
  · refine observes_attempt ?_ fun _ => observes_pure _
    refine (observes_draw keepsSource_direction).perform fun spare => ?_
    refine observes_attempt_get fun node => ?_
    split
    · exact observes_throw _
    · refine observes_attempt (observes_attempt_modify ?_) fun _ => observes_pure _
      exact fun _ equipped => ⟨equipped.settings, equipped.portion⟩
  · exact observes_pure _

theorem observes_echoBack (stream : StreamId) (limit : Limit) (rounds : Nat) :
    Observes pace (echoBack stream limit rounds).run := by
  induction rounds with
  | zero => exact observes_pure _
  | succ rounds ih =>
      refine (observes_request rfl).perform fun reply => ?_
      cases reply with
      | bytes content => exact observes_attempt (observes_send _ _ _) fun _ => ih
      | ended => exact observes_pure _
      | expired => exact observes_throw _

theorem observes_serveEcho (stream : StreamId) (outer : Option Limit) :
    Observes pace (serveEcho stream outer).run := by
  refine observes_attempt_get fun node => observes_attempt (observes_limit _ _ _) fun limit => ?_
  exact observes_attempt (observes_send _ _ _) fun _ => observes_echoBack _ _ _

theorem observes_serve (tag : Wire.ServiceTag) (stream : StreamId) :
    Observes pace (serve tag stream) := by
  refine (observes_closing ?_).bind fun _ => observes_pure _
  cases tag with
  | gossip => exact observes_serveGossip _ _
  | vivaldi => exact observes_serveEcho _ _
  | nodeInfo => exact observes_serveRecord _ _

end Pings

section Neighbors

variable (serial : Nat)

theorem observes_pingOnce : Observes pace (pingOnce serial).run := by
  have probed : Observes pace (probe serial).run := by
    refine observes_attempt_get fun node => ?_
    refine observes_attempt (observes_requestRecord _ _ _) fun record => ?_
    refine observes_attempt_get fun told => ?_
    have finish : Observes pace (ExceptT.run (do
        modify (·.withTracker serial (·.refreshed record))
        let sample ← ping record.address false
        pure sample.roundTrip)) :=
      observes_attempt (observes_withTracker _ _) fun _ =>
        observes_attempt (observes_ping _ _) fun _ => observes_pure _
    dsimp only
    split
    · exact (observes_request rfl).perform fun _ => finish
    · exact finish
  refine probed.bind fun result => (observes_modify ?_).bind fun _ => observes_pure _
  exact fun _ equipped => ⟨equipped.settings, equipped.portion⟩

theorem observes_dropNeighbors (dropped : List PeerId) :
    Observes pace (dropNeighbors dropped) := by
  refine observes_get fun node equipped => ?_
  refine (observes_set ?_).bind fun _ => observes_forM fun member => ?_
  · exact ⟨equipped.settings, equipped.portion⟩
  · exact (observes_withTracker _ _).bind fun _ => observes_request rfl

theorem observes_dropAllNeighbors : Observes pace dropAllNeighbors :=
  observes_get fun _ _ => observes_dropNeighbors _

theorem observes_addNeighbor (record : PeerRecord) : Observes pace (addNeighbor record) := by
  refine observes_get fun node equipped => ?_
  refine (observes_set ?_).bind fun _ => (observes_request rfl).bind fun _ => observes_pure _
  exact ⟨equipped.settings, equipped.portion⟩

theorem observes_maintain : Observes pace maintain := by
  refine observes_get fun node _ => (observes_forM fun _ => observes_request rfl).bind fun _ => ?_
  refine (observes_dropNeighbors _).bind fun _ => observes_get fun left _ => ?_
  refine (observes_forM fun record => ?_).bind fun _ => observes_get fun _ _ => ?_
  · exact (observes_addNeighbor record).bind fun _ => observes_pure _
  · exact (observes_request rfl).bind fun _ => observes_pure _

end Neighbors

section Turns

/-- The timers of a job that waits for an interval, or of one that waits for something else. -/
def ofJob (settings : Settings) (portion : DrawCount → Binary64) (job : Job) : Pace where
  settings := settings
  portion := portion
  allows span := ∀ interval, interval? settings job = some interval →
    ∃ count, span = interval.jittered (portion count)

/-- What is drawn for a timer is the interval, lengthened with the source. -/
theorem observes_jittered {span : Duration} {next : Duration → Program Node α}
    (rest : ∀ count, Observes pace (next (span.jittered (pace.portion count)))) :
    Observes pace (jittered span >>= next) := by
  intro now equipped
  have drawn : Equipped pace { now with dice := (Dice.jittered span now.dice).2 } :=
    ⟨equipped.settings, (keepsSource_jittered span now.dice).trans equipped.portion⟩
  have told : (Dice.jittered span now.dice).1 = span.jittered (pace.portion now.dice.count) := by
    rw [← equipped.portion]
    rfl
  have goesOn := rest now.dice.count _ drawn
  rw [← told] at goesOn
  rw [keeps_bind]
  exact ⟨drawn, goesOn⟩

theorem observes_isStopped {delay : Duration} (allowed : pace.allows delay) (group : Nat) :
    Observes pace (isStopped delay group) := by
  refine (observes_pause allowed _).bind fun reply => ?_
  cases reply with
  | elapsed => exact observes_pure _
  | heard signal => exact observes_pure _

variable {settings : Settings} {portion : DrawCount → Binary64}

/-- A turn that waits for the interval of its job, until it is stopped or goes on. -/
theorem observes_waiting {job : Job} {pause : Settings → Duration}
    (interval : interval? settings job = some (pause settings)) (group : Nat)
    {stopped goesOn : Program Node (Option Job)}
    (left : Observes (ofJob settings portion job) stopped)
    (right : Observes (ofJob settings portion job) goesOn) :
    Observes (ofJob settings portion job) (do
      let delay ← jittered (pause (← get).settings)
      if ← isStopped delay group then stopped else goesOn) := by
  refine observes_get fun node equipped => ?_
  rw [equipped.settings]
  refine observes_jittered fun count => ?_
  refine (observes_isStopped (fun own same => ⟨count, ?_⟩) group).bind fun ends =>
    observes_ite left right
  cases interval.symm.trans same
  rfl

theorem observes_gossipTurn {job : Job} (interval : interval? settings job =
    some settings.gossipPause) (algorithm : Algorithm) (group : Nat) :
    Observes (ofJob settings portion job) (gossipTurn algorithm group) :=
  observes_waiting interval group ((observes_request rfl).bind fun _ => observes_pure _)
    ((observes_reportedRound algorithm).bind fun _ => observes_pure _)

theorem observes_refineWith (peer : PeerRecord) : Observes pace (refineWith peer) := by
  refine observes_get fun node _ => observes_ite (observes_pure _) ?_
  refine (observes_ping _ _).bind fun result => ?_
  cases result with
  | ok sample => exact observes_get fun _ _ => observes_request rfl
  | error failure => exact observes_request rfl

theorem observes_refinementTurn (group : Nat) :
    Observes (ofJob settings portion (.refinement group)) (refinementTurn group) := by
  refine observes_waiting rfl group ((observes_request rfl).bind fun _ => observes_pure _) ?_
  refine observes_get fun node _ =>
    (observes_draw (keepsSource_randomNeighbor node)).bind fun neighbor => ?_
  refine observes_get fun node _ =>
    (observes_draw (keepsSource_randomKnownNode node)).bind fun other => ?_
  exact (observes_forM observes_refineWith).bind fun _ => observes_pure _

theorem observes_maintenanceTurn (group : Nat) :
    Observes (ofJob settings portion (.maintenance group)) (maintenanceTurn group) := by
  refine observes_waiting rfl group ?_ (observes_maintain.bind fun _ => observes_pure _)
  exact observes_dropAllNeighbors.bind fun _ =>
    (observes_request rfl).bind fun _ => observes_pure _

theorem observes_trackerTurn (serial : Nat) :
    Observes (ofJob settings portion (.tracker serial)) (trackerTurn serial) := by
  have stopped (tracker : Tracker) :
      Observes (ofJob settings portion (.tracker serial)) (trackerTurn.stop tracker) :=
    (observes_request rfl).bind fun _ => observes_pure _
  refine observes_get fun node _ => observes_ite (stopped _) ?_
  refine (observes_pingOnce serial).bind fun outcome => observes_get fun pinged equipped => ?_
  refine (observes_request rfl).bind fun _ => observes_ite ?_ (observes_ite (observes_pure _) ?_)
  · refine observes_ite (stopped _) ((observes_pingOnce serial).bind fun confirmation => ?_)
    cases confirmation with
    | ok roundTrip => exact observes_pure _
    | error failure => exact stopped _
  · rw [equipped.settings]
    refine observes_jittered fun count => ?_
    refine (observes_pause ?_ _).bind fun _ => observes_pure _
    rintro _ ⟨⟩
    exact ⟨count, rfl⟩

/-- A job without an interval may wait as it likes. -/
theorem allows_other {job : Job} (other : interval? settings job = none) (span : Duration) :
    (ofJob settings portion job).allows span := by
  intro interval same
  cases other.symm.trans same

theorem observes_listeningTurn {job : Job} (other : interval? settings job = none) (group : Nat) :
    Observes (ofJob settings portion job) (listeningTurn group) :=
  (observes_isStopped (allows_other other _) group).bind fun _ =>
    observes_ite ((observes_request rfl).bind fun _ => observes_pure _) (observes_pure _)

theorem observes_respond {job : Job} (other : interval? settings job = none) (manner : Manner)
    (stream : StreamId) (content : Wire.Bytes) :
    Observes (ofJob settings portion job) (respond manner stream content) := by
  rw [respond.eq_def]
  split
  · next amount delays =>
      refine Observes.bind ?_ fun _ => (observes_request rfl).bind fun reply => ?_
      · cases delays with
        | nil => exact observes_pure _
        | cons delay delays =>
            exact (observes_pause (allows_other other delay) _).bind fun _ => observes_pure _
      · cases reply with
        | written => exact observes_pure _
        | broken => exact observes_pure _
        | expired => exact observes_pure _
  · exact observes_pure _

theorem observes_scriptedTurn {job : Job} (other : interval? settings job = none)
    (manner : Manner) (stream : StreamId) :
    Observes (ofJob settings portion job) (scriptedTurn manner stream) := by
  rw [scriptedTurn.eq_def]
  split
  · exact observes_pure _
  · refine (observes_request rfl).bind fun reply => ?_
    cases reply with
    | bytes content =>
        refine (observes_respond other manner stream content).bind fun next => ?_
        cases next with
        | some manner => exact observes_pure _
        | none => exact (observes_request rfl).bind fun _ => observes_pure _
    | ended => exact (observes_request rfl).bind fun _ => observes_pure _
    | expired => exact (observes_request rfl).bind fun _ => observes_pure _

/-- Every turn arms the timers of its job, and no others. -/
theorem observes_turn (job : Job) : Observes (ofJob settings portion job) (turn job) := by
  cases job with
  | gossip algorithm group =>
      exact (observes_request rfl).bind fun _ => observes_gossipTurn rfl algorithm group
  | gossipRound algorithm group => exact observes_gossipTurn rfl algorithm group
  | refinement group => exact observes_refinementTurn group
  | maintenance group => exact observes_maintenanceTurn group
  | reporter interval group =>
      refine (observes_isStopped (allows_other rfl interval) group).bind fun ends =>
        observes_ite ((observes_request rfl).bind fun _ => observes_pure _) ?_
      refine (observes_modify ?_).bind fun _ => observes_get fun node _ => ?_
      · exact fun _ equipped => ⟨equipped.settings, equipped.portion⟩
      · exact (observes_request rfl).bind fun _ => observes_pure _
  | acceptor address group =>
      exact (observes_request rfl).bind fun _ => observes_listeningTurn rfl group
  | listening group => exact observes_listeningTurn rfl group
  | tracker serial => exact (observes_trackerTurn serial).bind fun _ => observes_pure _
  | serve tag stream => exact (observes_serve tag stream).bind fun _ => observes_pure _
  | script opening manner stream =>
      refine (observes_request rfl).bind fun _ => ?_
      cases manner with
      | close => exact (observes_request rfl).bind fun _ => observes_pure _
      | echo amount delays => exact observes_pure _
      | hang => exact observes_pure _
  | scriptedReply manner stream => exact observes_scriptedTurn rfl manner stream

end Turns

end Pace

end Overlay.Node
