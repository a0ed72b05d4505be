import Overlay.Proofs.Circulation
import Overlay.Proofs.Node.Round
import Overlay.Proofs.Program.Transport

/-!
The connections that a round of gossip makes, watched from the node that makes them.

Of each connection is noted where it goes, how long the node is ready to wait for it and what is
read from it. What else the node does while it waits is left open, as long as the engine of the
round takes in no reply (`watched`). Questions for a record are not noted; of other connections the
round makes none before it turns to a peer (`keeps_seedCache`).
-/

set_option autoImplicit false

namespace Overlay.Node.Attempts

open Attempt Chance Program Surroundings
open Wire (IsFrame Layout isFrame_iff)

/-- A connection to a service at an address, and what came of it. -/
structure Contact where
  address : SocketAddress
  tag : Wire.ServiceTag
  /-- The moment at which the node last looked at the time before it connected. -/
  began : Instant
  /-- After what time the network itself gives up. -/
  patience : Duration
  /-- The moment at which the node gives up. -/
  deadline : Instant
  /-- Whether the node was ready to wait until another moment, to read or to write. -/
  extended : Bool
  /-- What was read from the connection. -/
  heard : Wire.Bytes
  /-- The peer that was reported not to have answered. -/
  blamed : Option PeerId
deriving DecidableEq, Inhabited, Repr

/-- The node is ready to wait until some moment. -/
def Contact.waiting (deadline : Option Instant) (contact : Contact) : Contact :=
  { contact with extended := contact.extended || deadline != some contact.deadline }

/-- More was read from the connection. -/
def Contact.hearing (content : Wire.Bytes) (contact : Contact) : Contact :=
  { contact with heard := contact.heard ++ content }

/-- The connection was reported to be of no use. -/
def Contact.blaming (peer : PeerId) (contact : Contact) : Contact :=
  { contact with blamed := some peer }

/-- A node at work on a round, and what can be seen of it. -/
structure Watch where
  node : Node
  /-- The moment at which the node last looked at the time. -/
  latest : Instant
  /-- The connections, newest first, but for those that ask for a record. -/
  contacts : List Contact

/-- What is noted of a request and its answer. -/
def noting : (request : Request) → request.Reply → Watch → Watch
  | .moment, moment, now => { now with latest := moment }
  | .connect _ .nodeInfo _ _, _, now => now
  | .connect address tag patience deadline, _, now =>
    { now with
      contacts := ⟨address, tag, now.latest, patience, deadline, false, [], none⟩ :: now.contacts }
  | .read _ _ deadline, .bytes content, now =>
    { now with
      contacts := (now.contacts.modifyHead (.waiting deadline)).modifyHead (.hearing content) }
  | .read _ _ deadline, _, now | .write _ _ deadline, _, now =>
    { now with contacts := now.contacts.modifyHead (.waiting deadline) }
  | .report (.exchangeFailed _ peer _), _, now | .report (.fallbackFailed _ peer _), _, now =>
    { now with contacts := now.contacts.modifyHead (.blaming peer) }
  | _, _, now => now

/-- Two states of an engine between which no reply was taken in. -/
structure Alike (engine current : Engine) : Prop where
  algorithm : current.algorithm = engine.algorithm
  settings : current.settings = engine.settings
  fallback : current.fallback = engine.fallback
  owner : current.owner = engine.owner

/-- What other work of a node leaves alone while one of its rounds goes on: who it is and how it was
set up, and of the engine of the round all but its cache and its tally. -/
structure Spares (algorithm : Algorithm) (now after : Node) : Prop where
  id : after.record.id = now.record.id
  settings : after.settings = now.settings
  engine : ∀ engine, now.running? algorithm = some engine →
    ∃ current, after.running? algorithm = some current ∧ Alike engine current

/-- As many bytes are read as were asked for. -/
def Whole : (request : Request) → request.Reply → Prop
  | .read _ count _, .bytes content => content.length = count
  | _, _ => True

/-- A node that does other work while a round waits, even for the engine of the round. The network
may answer in any way. -/
def watched (algorithm : Algorithm) : Surroundings Node Watch where
  look := Watch.node
  leave now node := { now with node }
  Answers request now reply after := Whole request reply ∧
    ∃ node, Spares algorithm now.node node ∧ after = noting request reply { now with node }
  Accepts _ _ := True
  Admits _ _ := True

variable {algorithm : Algorithm} {α : Type}

theorem Alike.refl (engine : Engine) : Alike engine engine := ⟨rfl, rfl, rfl, rfl⟩

theorem Alike.trans {first second third : Engine} (before : Alike first second)
    (after : Alike second third) : Alike first third where
  algorithm := after.algorithm.trans before.algorithm
  settings := after.settings.trans before.settings
  fallback := after.fallback.trans before.fallback
  owner := after.owner.trans before.owner

theorem Spares.refl (node : Node) : Spares algorithm node node :=
  ⟨rfl, rfl, fun engine runs => ⟨engine, runs, .refl engine⟩⟩

theorem Spares.trans {first second third : Node} (before : Spares algorithm first second)
    (after : Spares algorithm second third) : Spares algorithm first third where
  id := after.id.trans before.id
  settings := after.settings.trans before.settings
  engine engine runs := by
    obtain ⟨middle, runs, alike⟩ := before.engine engine runs
    obtain ⟨current, runs, further⟩ := after.engine middle runs
    exact ⟨current, runs, alike.trans further⟩

/-- The network can always answer somehow. -/
theorem exists_answer (request : Request) (now : Watch) :
    ∃ reply after, (watched algorithm).Answers request now reply after := by
  have same : Spares algorithm now.node now.node := .refl now.node
  have possible : ∃ reply, Whole request reply := by
    cases request with
    | moment => exact ⟨⟨0, 0⟩, trivial⟩
    | connect => exact ⟨.expired, trivial⟩
    | read => exact ⟨.expired, trivial⟩
    | write => exact ⟨.expired, trivial⟩
    | pause => exact ⟨.elapsed, trivial⟩
    | launch => exact ⟨⟨0⟩, trivial⟩
    | _ => exact ⟨(), trivial⟩
  obtain ⟨reply, whole⟩ := possible
  exact ⟨reply, _, whole, now.node, same, rfl⟩

/-- A round has come so far: nothing it depends on has changed since it began, and these connections
were made. -/
structure Still (algorithm : Algorithm) (first : Node) (contacts : List Contact) (now : Watch) :
    Prop where
  spared : Spares algorithm first now.node
  contacts : now.contacts = contacts

/-- What comes of reading a frame, in view of all that was read. -/
def Received (layout : Layout α) (maximum : Nat) (heard : Wire.Bytes) : Except Failure α → Prop
  | .ok value => IsFrame layout maximum heard value
  | .error _ => ∀ value, ¬ IsFrame layout maximum heard value

section Rules

variable {first : Node} {contacts : List Contact} {now : Watch} {stream : StreamId} {limit : Limit}

@[simp] theorem look_watched : (watched algorithm).look now = now.node := rfl

theorem Still.wait (still : Still algorithm first contacts now) {node : Node}
    (waited : Spares algorithm now.node node) : Still algorithm first contacts { now with node } :=
  ⟨still.spared.trans waited, still.contacts⟩

theorem keeps_request {request : Request} {post : request.Reply → Watch → Prop} :
    (watched algorithm).Keeps (Program.request request) post now ↔
      ∀ reply node, Whole request reply → Spares algorithm now.node node →
        post reply (noting request reply { now with node }) := by
  constructor
  · rintro ⟨_, answers⟩ reply node whole waited
    exact answers reply _ ⟨whole, node, waited, rfl⟩
  · rintro holds
    refine ⟨trivial, ?_⟩
    rintro reply _ ⟨whole, node, waited, rfl⟩
    exact holds reply node whole waited

theorem keeps_limit {activity : Activity} {span : Duration}
    {post : Except Failure Limit → Watch → Prop} (still : Still algorithm first contacts now)
    (holds : ∀ after, Still algorithm first contacts after →
      post (.ok ⟨after.latest.after span, activity⟩) after) :
    (watched algorithm).Keeps (Attempt.limit activity span none).run post now :=
  keeps_run_limit.mpr (keeps_request.mpr fun moment node _ waited =>
    holds { now with node, latest := moment } ⟨still.spared.trans waited, still.contacts⟩)

/-- Whoever waits to the deadline of the last connection is in time. -/
def Timely (limit : Limit) (contacts : List Contact) : Prop :=
  contacts.modifyHead (.waiting (some limit.deadline)) = contacts

theorem timely_cons {contact : Contact} (same : contact.deadline = limit.deadline) :
    Timely limit (contact :: contacts) := by
  rw [Timely, List.modifyHead_cons, Contact.waiting, ← same, bne_self_eq_false, Bool.or_false]

theorem Timely.hearing (timely : Timely limit contacts) (content : Wire.Bytes) :
    Timely limit (contacts.modifyHead (.hearing content)) := by
  have swap : (contacts.modifyHead (.hearing content)).modifyHead
      (.waiting (some limit.deadline)) =
      (contacts.modifyHead (.waiting (some limit.deadline))).modifyHead (.hearing content) := by
    rw [List.modifyHead_modifyHead, List.modifyHead_modifyHead]
    rfl
  rw [Timely, swap, timely]

/-- A wait that is in time changes nothing that is noted. -/
theorem Still.waiting (still : Still algorithm first contacts now) (timely : Timely limit contacts)
    {node : Node} (waited : Spares algorithm now.node node) :
    Still algorithm first contacts { now with
      node, contacts := now.contacts.modifyHead (.waiting (some limit.deadline)) } :=
  ⟨still.spared.trans waited, still.contacts.symm ▸ timely⟩

theorem keeps_send {bytes : Wire.Bytes} {post : Except Failure Unit → Watch → Prop}
    (still : Still algorithm first contacts now) (timely : Timely limit contacts)
    (holds : ∀ result after, Still algorithm first contacts after → post result after) :
    (watched algorithm).Keeps (send stream bytes limit).run post now :=
  keeps_run_send.mpr (keeps_request.mpr fun _ _ _ waited =>
    holds _ _ (still.waiting timely waited))

theorem keeps_sendFrame {layout : Layout α} {value : α} {maximum : Nat}
    {post : Except Failure Unit → Watch → Prop} (still : Still algorithm first contacts now)
    (timely : Timely limit contacts)
    (holds : ∀ result after, Still algorithm first contacts after → post result after) :
    (watched algorithm).Keeps (sendFrame layout stream value maximum limit).run post now :=
  keeps_run_sendFrame (fun _ _ => keeps_send still timely holds) fun _ _ => holds _ now still

theorem keeps_receive {count : Nat} {fault : StreamFault}
    {post : Except Failure Wire.Bytes → Watch → Prop} (still : Still algorithm first contacts now)
    (timely : Timely limit contacts)
    (arrived : ∀ content after, content.length = count →
      Still algorithm first (contacts.modifyHead (.hearing content)) after →
      post (.ok content) after)
    (missing : ∀ failure after, Still algorithm first contacts after →
      post (.error failure) after) :
    (watched algorithm).Keeps (receive stream count fault limit).run post now := by
  refine keeps_run_receive.mpr (keeps_request.mpr fun reading node whole waited => ?_)
  have told := still.waiting timely waited
  cases reading with
  | bytes content =>
      exact arrived content _ whole ⟨told.spared, congrArg (List.modifyHead _) told.contacts⟩
  | ended => exact missing _ _ told
  | expired => exact missing _ _ told

theorem hearing_nil : contacts.modifyHead (.hearing []) = contacts := by
  cases contacts with
  | nil => rfl
  | cons contact earlier => simp [Contact.hearing]

theorem hearing_append (before after : Wire.Bytes) :
    (contacts.modifyHead (.hearing before)).modifyHead (.hearing after) =
      contacts.modifyHead (.hearing (before ++ after)) := by
  cases contacts with
  | nil => rfl
  | cons contact earlier => simp [Contact.hearing]

/-- Whether a frame was received can be seen from the bytes. No layout is meant that has values
without bytes. -/
theorem keeps_receiveFrame {layout : Layout α} {maximum : Nat}
    {post : Except Failure α → Watch → Prop} (still : Still algorithm first contacts now)
    (timely : Timely limit contacts)
    (positive : ∀ value, Wire.decodeBody layout [] ≠ .ok value)
    (holds : ∀ result heard after, Received layout maximum heard result →
      Still algorithm first (contacts.modifyHead (.hearing heard)) after → post result after) :
    (watched algorithm).Keeps (receiveFrame layout stream maximum limit).run post now := by
  refine keeps_run_frame
    (fun heard after => Still algorithm first (contacts.modifyHead (.hearing heard)) after)
    (hearing_nil ▸ still) ?_ ?_ ?_
  · intro heard middle count fault sofar wants
    refine keeps_receive sofar (timely.hearing heard) (fun content after length further => ?_)
      fun failure after cut => ?_
    · rw [hearing_append] at further
      exact ⟨length, further⟩
    · refine holds _ heard after (fun value complete => positive value ?_) cut
      -- No more than a header was heard, which is no frame without a body.
      obtain ⟨_, _, _, decoded⟩ := isFrame_iff.mp complete
      rwa [List.drop_eq_nil_of_le wants.early, List.take_nil] at decoded
  · exact fun heard value after sofar complete => holds (.ok value) heard after complete sofar
  · intro heard failure after sofar broken
    refine holds _ heard after (fun value complete => broken [] value ?_) sofar
    rwa [List.append_nil]

theorem keeps_closing {attempt : Attempt Node α} {post : Except Failure α → Watch → Prop}
    (keeps : (watched algorithm).Keeps attempt.run (fun result after =>
      ∀ node, Spares algorithm after.node node → post result { after with node }) now) :
    (watched algorithm).Keeps (closing stream attempt).run post now :=
  keeps_run_closing.mpr (keeps.mono fun _ _ holds =>
    keeps_request.mpr fun _ node _ waited => holds node waited)

theorem keeps_report {event : Event} {post : Unit → Watch → Prop}
    (still : Still algorithm first contacts now)
    (unnoted : ∀ middle, noting (.report event) () middle = middle)
    (holds : ∀ after, Still algorithm first contacts after → post () after) :
    (watched algorithm).Keeps (Program.report event) post now := by
  refine keeps_request.mpr fun _ node _ waited => ?_
  rw [unnoted]
  exact holds _ (still.wait waited)

theorem keeps_draw {chance : Chance α} {satisfied : α → Prop} {post : α → Watch → Prop}
    (still : Still algorithm first contacts now) (ensured : chance.Ensures satisfied)
    (holds : ∀ value after, satisfied value → Still algorithm first contacts after →
      post value after) :
    (watched algorithm).Keeps (draw chance) post now := by
  refine ⟨trivial, holds _ _ (ensured now.node.dice) ⟨still.spared.trans ?_, still.contacts⟩⟩
  exact ⟨rfl, rfl, fun engine runs => ⟨engine, runs, .refl engine⟩⟩

/-- The engine as a round finds it. -/
theorem Still.engine {engine : Engine} (still : Still algorithm first contacts now)
    (runs : first.running? algorithm = some engine) :
    now.node.running? algorithm = some (now.node.engine algorithm) ∧
      Alike engine (now.node.engine algorithm) := by
  obtain ⟨current, running, alike⟩ := still.spared.engine engine runs
  rw [engine_of_running? running]
  exact ⟨running, alike⟩

variable {engine : Engine}

theorem keeps_onEngine {change : Engine → Chance (α × Engine)}
    (runs : first.running? algorithm = some engine) (still : Still algorithm first contacts now)
    (ensured : ∀ current, (change current).Ensures fun answered => Alike current answered.2)
    {post : α → Watch → Prop}
    (holds : ∀ value after, Still algorithm first contacts after → post value after) :
    (watched algorithm).Keeps (onEngine algorithm change) post now := by
  obtain ⟨running, _⟩ := still.engine runs
  have kept := ensured (now.node.engine algorithm) now.node.dice
  refine ⟨trivial, trivial, holds _ _ ⟨still.spared.trans ⟨rfl, rfl, ?_⟩, still.contacts⟩⟩
  intro current runs
  obtain rfl := Option.some.inj (running.symm.trans runs)
  exact ⟨_, running?_changed _ running kept.algorithm, kept⟩

theorem keeps_updateEngine {change : Engine → Engine}
    (runs : first.running? algorithm = some engine) (still : Still algorithm first contacts now)
    (alike : ∀ current, Alike current (change current)) {post : Unit → Watch → Prop}
    (holds : ∀ after, Still algorithm first contacts after → post () after) :
    (watched algorithm).Keeps (updateEngine algorithm change) post now :=
  keeps_onEngine runs still
    (fun current => (ensures_pure ((), change current) _).mpr (alike current)) fun _ => holds

section Seeding

theorem keeps_connected {address : SocketAddress} {tag : Wire.ServiceTag} {patience : Duration}
    {attempt : StreamId → Attempt Node α} {made : List Contact}
    {post : Except Failure α → Watch → Prop}
    (noted : ∀ reply node, Spares algorithm now.node node → Still algorithm first made
      (noting (.connect address tag patience limit.deadline) reply { now with node }))
    (opened : ∀ stream after, Still algorithm first made after →
      (watched algorithm).Keeps (attempt stream).run (fun result after =>
        ∀ node, Spares algorithm after.node node → post result { after with node }) after)
    (failed : ∀ failure after, Still algorithm first made after → post (.error failure) after) :
    (watched algorithm).Keeps (connected address tag patience limit attempt).run post now := by
  refine keeps_run_connected.mpr (keeps_request.mpr fun connecting node _ waited => ?_)
  have still := noted connecting node waited
  cases connecting with
  | opened stream => exact keeps_closing (opened stream _ still)
  | failed fault => exact failed _ _ still
  | expired => exact failed _ _ still

theorem keeps_requestRecord {address : SocketAddress} {patience : Duration} {maximum : Nat}
    {post : Except Failure PeerRecord → Watch → Prop} (still : Still algorithm first [] now)
    (holds : ∀ result after, Still algorithm first [] after → post result after) :
    (watched algorithm).Keeps (requestRecord address patience maximum).run post now := by
  simp only [requestRecord, keeps_run_bind]
  refine keeps_limit still fun ready still => ?_
  refine keeps_connected (fun _ node waited => still.wait waited) (fun stream opened still => ?_)
    fun failure => holds _
  rw [keeps_run_bind]
  refine keeps_send still rfl fun result sent still => ?_
  cases result with
  | error failure => exact fun node waited => holds _ _ (still.wait waited)
  | ok sent =>
      refine keeps_receiveFrame still rfl (fun _ decoded => by cases decoded)
        fun result heard after _ still node waited => ?_
      exact holds result _ (still.wait waited)

theorem keeps_bootstrapPeer {post : Option PeerRecord → Watch → Prop}
    (still : Still algorithm first [] now)
    (holds : ∀ found after, Still algorithm first [] after → post found after) :
    (watched algorithm).Keeps bootstrapPeer post now := by
  simp only [bootstrapPeer, keeps_bind, keeps_get]
  split
  · exact holds _ _ still
  · refine ⟨trivial, holds _ _ ⟨still.spared.trans ⟨rfl, rfl, ?_⟩, still.contacts⟩⟩
    exact fun engine runs => ⟨engine, runs, .refl engine⟩
  · exact holds _ _ still
  · rw [keeps_bind]
    refine keeps_draw still (ensures_true _) fun place drawn _ still => ?_
    rw [keeps_bind]
    refine keeps_run_reporting.mpr (keeps_requestRecord still fun result asked still => ?_)
    cases result with
    | ok record => exact holds _ _ still
    | error failure => exact keeps_report still (fun _ => rfl) fun after still => holds _ _ still

theorem alike_seed (current : Engine) (record : PeerRecord) (clock : Timestamp) :
    (current.seed record clock).Ensures (Alike current) := by
  intro dice
  obtain ⟨⟨cache, same⟩, -⟩ := current.seed_origin record clock dice
  have owner := (current.seed_frame record clock dice).owner_eq
  refine ⟨?_, ?_, ?_, owner⟩
  · rw [same]
  · rw [same]
  · rw [same]

theorem keeps_seedCache {post : Unit → Watch → Prop}
    (runs : first.running? algorithm = some engine) (still : Still algorithm first [] now)
    (holds : ∀ after, Still algorithm first [] after → post () after) :
    (watched algorithm).Keeps (seedCache algorithm) post now := by
  simp only [seedCache, keeps_bind, keeps_get]
  refine keeps_ite (fun _ => ?_) fun _ => holds now still
  rw [keeps_bind]
  refine keeps_bootstrapPeer still fun found asked still => ?_
  cases found with
  | none => exact holds asked still
  | some record =>
      simp only [keeps_bind, keeps_get]
      refine keeps_ite (fun _ => ?_) fun _ => holds asked still
      rw [keeps_bind]
      refine keeps_report still (fun _ => rfl) fun reported still => ?_
      refine keeps_onEngine runs still (fun current => ?_) fun _ => holds
      exact (alike_seed current record _).bind fun seeded alike => (ensures_pure _ _).mpr alike

end Seeding

end Rules

end Overlay.Node.Attempts
