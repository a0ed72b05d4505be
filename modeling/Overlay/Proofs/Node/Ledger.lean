import Overlay.Proofs.Node.Dealings
import Overlay.Proofs.Node.History
import Overlay.Proofs.Program.Transport

/-!
What an engine tells of what it has dealt with.

Rounds come one after the other, and requests come at any time, also while a round waits for its
peers. Whatever a round meets, its engine's tally counts the history and what is pending of the
round (`keeps_round`), so that the numbers which the engine tells are those of its history
(`stats_exact`).
-/

set_option autoImplicit false

namespace Overlay.Node.Ledger

open Attempt Chance History Program Surroundings

/-- A node with the history of one of its engines, while a round of it is under way: how many peers
the round has called so far, and what it has read last. -/
structure Scene where
  node : Node
  dealt : List Dealt
  called : Nat
  heard : Wire.Bytes

/-- How many peers a request calls for an exchange. -/
def calls : Request → Nat
  | .connect _ .gossip _ _ => 1
  | _ => 0

/-- What was read last, after one more request. -/
def latest : (request : Request) → request.Reply → Wire.Bytes → Wire.Bytes
  | .read .., .bytes content, _ => content
  | _, _, before => before

/-- The scene once a request of the round was answered. -/
def Scene.noted (scene : Scene) (request : Request) (reply : request.Reply) : Scene :=
  { scene with
    called := scene.called + calls request
    heard := latest request reply scene.heard }

/-- While a round waits, and between two rounds, the node does other work and answers requests. -/
inductive Passes (algorithm : Algorithm) : Scene → Scene → Prop
  | refl (scene : Scene) : Passes algorithm scene scene
  | work {first now : Scene} (node : Node) (before : Passes algorithm first now)
      (spares : Round.Spares algorithm now.node node) : Passes algorithm first { now with node }
  | request {first now : Scene} {request : Message} {outcome : Except Failure Message} {node : Node}
      (before : Passes algorithm first now)
      (run : (Round.undisturbed algorithm).Runs (answerWith algorithm request).run now.node
        outcome node) :
      Passes algorithm first { now with node, dealt := now.dealt ++ [.request request outcome] }

/-- A node that goes on while a round of one of its engines waits. Whatever the round asks for may
be answered in any way. -/
def dealing (algorithm : Algorithm) : Surroundings Node Scene where
  look := Scene.node
  leave now node := { now with node }
  Answers request now reply after := Passes algorithm (now.noted request reply) after
  Accepts _ _ := True
  Admits _ _ := True

/-- What can become of a node, and the history of one of its engines from the first node on: rounds
one after the other, and requests at any time. -/
inductive Course (algorithm : Algorithm) (first : Node) : Node → List Dealt → Prop
  | start : Course algorithm first first []
  | pass {node : Node} {dealt : List Dealt} {after : Scene}
      (course : Course algorithm first node dealt)
      (passes : Passes algorithm ⟨node, dealt, 0, []⟩ after) :
      Course algorithm first after.node after.dealt
  | round {node : Node} {dealt : List Dealt} {outcome : Except Failure Round} {after : Scene}
      (course : Course algorithm first node dealt)
      (run : (dealing algorithm).Runs (Node.round algorithm).run ⟨node, dealt, 0, []⟩ outcome
        after) :
      Course algorithm first after.node
        (after.dealt ++ [.round outcome after.called after.heard])

/-- The engine is what it may be, and its tally counts its history. -/
structure Kept (pending : Pending) (dealt : List Dealt) (engine : Engine) : Prop where
  sound : ∃ settings owner, Engine.Sound settings owner engine
  counted : Counted pending dealt engine.tally

/-- The engine runs at the node, its books are kept, and the round has called so many peers. -/
structure Held (algorithm : Algorithm) (pending : Pending) (called : Nat) (scene : Scene) :
    Prop where
  running : ∃ engine, scene.node.running? algorithm = some engine ∧
    Kept pending scene.dealt engine
  called : scene.called = called

section Engines

variable {pending : Pending} {dealt : List Dealt} {engine : Engine}

theorem Kept.withCache {cache : PeerCache} (kept : Kept pending dealt engine)
    (whole : PeerCache.WellFormed engine.cache → PeerCache.WellFormed cache)
    (frame : PeerCache.SameFrame engine.cache cache) :
    Kept pending dealt { engine with cache } := by
  obtain ⟨⟨settings, owner, sound⟩, counted⟩ := kept
  exact ⟨⟨settings, owner, sound.withCache (whole sound.cache) frame⟩, counted⟩

theorem Kept.older (kept : Kept pending dealt engine) : Kept pending dealt engine.older :=
  kept.withCache PeerCache.growOlder_wellFormed rfl

theorem Kept.seed (kept : Kept pending dealt engine) (record : PeerRecord) (now : Timestamp) :
    (engine.seed record now).Ensures fun seeded =>
      seeded.algorithm = engine.algorithm ∧ Kept pending dealt seeded := by
  intro dice
  obtain ⟨settings, owner, sound⟩ := kept.sound
  have sound := sound.seed record now dice
  obtain ⟨⟨cache, frame⟩, -⟩ := engine.seed_origin record now dice
  rw [frame] at sound ⊢
  exact ⟨rfl, ⟨settings, owner, sound⟩, kept.counted⟩

theorem Kept.withTally {left : Pending} {tally : Tally} (kept : Kept pending dealt engine)
    (counted : Counted left dealt tally) : Kept left dealt { engine with tally } := by
  obtain ⟨⟨settings, owner, sound⟩, -⟩ := kept
  exact ⟨⟨settings, owner, sound.withCache sound.cache (.refl _)⟩, counted⟩

theorem Kept.retried (kept : Kept .none dealt engine) : Kept ⟨1, 0⟩ dealt engine.retried :=
  kept.withTally kept.counted.retried

theorem Kept.lost {retries : Nat} (kept : Kept ⟨retries, 0⟩ dealt engine) :
    Kept ⟨retries, 1⟩ dealt engine.failed :=
  kept.withTally kept.counted.lost

theorem Kept.answer (kept : Kept pending dealt engine) (own : PeerRecord) (now : Timestamp)
    (request : Message) : (engine.answer own now request).Ensures fun answer =>
      answer.2.algorithm = engine.algorithm ∧
        ∀ reply, Kept pending (dealt ++ [.request request (.ok reply)]) answer.2 := by
  intro dice
  obtain ⟨settings, owner, sound⟩ := kept.sound
  have sound := sound.answer own now request dice
  obtain ⟨cache, changed, frame⟩ := engine.answer_frame own now request dice
  refine ⟨by rw [frame], fun reply => ⟨⟨settings, owner, sound⟩, ?_⟩⟩
  rw [engine.answer_tally own now request dice]
  exact kept.counted.answered

/-- What is left when a reply was taken in, which is no part of the history yet. -/
structure Accepted (pending : Pending) (dealt : List Dealt) (reply : Message) (engine : Engine) :
    Prop where
  sound : ∃ settings owner, Engine.Sound settings owner engine
  counted : ∃ tally, Counted pending dealt tally ∧
    engine.tally = { tally.observe reply.entries with exchanges := tally.exchanges + 1 }

theorem Kept.accept (kept : Kept pending dealt engine) (now : Timestamp) (reply : Message) :
    (engine.accept now reply).Ensures fun after =>
      after.algorithm = engine.algorithm ∧ Accepted pending dealt reply after := by
  intro dice
  obtain ⟨settings, owner, sound⟩ := kept.sound
  exact ⟨(engine.accept_origin now reply dice).algorithm,
    ⟨settings, owner, sound.accept now reply dice⟩,
    engine.tally, kept.counted, engine.accept_tally now reply dice⟩

end Engines

section Waiting

variable {algorithm : Algorithm} {pending : Pending} {called : Nat} {now after : Scene}

/-- A request is either refused, and then nothing happens, or it is served. -/
theorem keeps_answerWith {node : Node} {dealt : List Dealt} {engine : Engine} (request : Message)
    (runs : node.running? algorithm = some engine) (kept : Kept pending dealt engine) :
    (Round.undisturbed algorithm).Keeps (answerWith algorithm request).run (fun outcome after =>
      ∃ changed, after.running? algorithm = some changed ∧
        Kept pending (dealt ++ [.request request outcome]) changed) node := by
  simp only [answerWith, keeps_run_bind, keeps_run_get, Round.look_undisturbed]
  cases (node.engine algorithm).refusal? request with
  | some failure => exact ⟨engine, runs, kept.sound, kept.counted.refused⟩
  | none =>
      have answer (middle : Node) (runs : middle.running? algorithm = some engine) :
          (Round.undisturbed algorithm).Keeps
            (onEngine algorithm fun engine => engine.answer node.record node.clock request)
            (fun reply after => ∃ changed, after.running? algorithm = some changed ∧
              Kept pending (dealt ++ [.request request (.ok reply)]) changed) middle := by
        apply Round.keeps_onEngine
          (fun changed => ∀ reply, Kept pending (dealt ++ [.request request (.ok reply)]) changed)
          runs
        · exact kept.answer node.record node.clock request
        · intro reply after changed runs kept
          exact ⟨changed, runs, kept reply⟩
      apply keeps_run_ite
      · intro _
        simp only [keeps_run_bind, keeps_run_perform]
        exact Round.keeps_report runs fun middle runs => answer middle runs
      · intro _
        rw [keeps_run_perform]
        exact answer node runs

/-- Whatever the node does besides, the books are kept, and the round is neither helped to a call
nor to what it reads. -/
theorem Passes.held (passes : Passes algorithm now after)
    (held : Held algorithm pending called now) :
    Held algorithm pending called after ∧ after.heard = now.heard := by
  induction passes with
  | refl => exact ⟨held, rfl⟩
  | work node _ spares ih =>
      obtain ⟨⟨⟨engine, runs, kept⟩, called⟩, heard⟩ := ih
      exact ⟨⟨⟨engine, Eq.trans spares runs, kept⟩, called⟩, heard⟩
  | request _ run ih =>
      obtain ⟨⟨⟨engine, runs, kept⟩, called⟩, heard⟩ := ih
      exact ⟨⟨(keeps_answerWith _ runs kept).ends run, called⟩, heard⟩

end Waiting

section Rules

variable {algorithm : Algorithm} {pending : Pending} {called : Nat} {now : Scene} {α β : Type}

theorem keeps_request (request : Request) {post : request.Reply → Scene → Prop}
    (held : Held algorithm pending called now)
    (holds : ∀ reply after, Held algorithm pending (called + calls request) after →
      after.heard = latest request reply now.heard → post reply after) :
    (dealing algorithm).Keeps (Program.request request) post now := by
  refine ⟨trivial, fun reply after passes => ?_⟩
  have noted : Held algorithm pending (called + calls request) (now.noted request reply) :=
    ⟨held.running, congrArg (· + calls request) held.called⟩
  obtain ⟨later, heard⟩ := passes.held noted
  exact holds reply after later heard

theorem keeps_report {event : Event} {post : Unit → Scene → Prop}
    (held : Held algorithm pending called now)
    (holds : ∀ after, Held algorithm pending called after → post () after) :
    (dealing algorithm).Keeps (Program.report event) post now :=
  keeps_request (.report event) held fun _ after held _ => holds after held

theorem keeps_draw {chance : Chance α} {post : α → Scene → Prop}
    (held : Held algorithm pending called now)
    (holds : ∀ value after, Held algorithm pending called after → post value after) :
    (dealing algorithm).Keeps (draw chance) post now :=
  ⟨trivial, holds _ _ ⟨held.running, held.called⟩⟩

/-- One engine is changed; all else of the scene is left as it is. -/
theorem keeps_onEngine {change : Engine → Chance (α × Engine)} (Changes : Engine → Prop)
    (held : Held algorithm pending called now)
    (ensured : ∀ engine, Kept pending now.dealt engine →
      (change engine).Ensures fun answered =>
        answered.2.algorithm = engine.algorithm ∧ Changes answered.2)
    {post : α → Scene → Prop}
    (holds : ∀ value node changed, node.running? algorithm = some changed → Changes changed →
      post value { now with node }) :
    (dealing algorithm).Keeps (onEngine algorithm change) post now := by
  obtain ⟨engine, runs, kept⟩ := held.running
  have same := engine_of_running? runs
  subst same
  obtain ⟨named, changes⟩ := ensured _ kept now.node.dice
  exact ⟨trivial, trivial, holds _ _ _ (running?_changed _ runs named) changes⟩

/-- An engine is changed, and its books are still kept. -/
theorem keeps_books {left : Pending} {change : Engine → Chance (α × Engine)}
    (held : Held algorithm pending called now)
    (ensured : ∀ engine, Kept pending now.dealt engine →
      (change engine).Ensures fun answered =>
        answered.2.algorithm = engine.algorithm ∧ Kept left now.dealt answered.2)
    {post : α → Scene → Prop}
    (holds : ∀ value after, Held algorithm left called after → post value after) :
    (dealing algorithm).Keeps (onEngine algorithm change) post now :=
  keeps_onEngine (Kept left now.dealt) held ensured fun value node changed runs kept =>
    holds value { now with node } ⟨⟨changed, runs, kept⟩, held.called⟩

theorem keeps_updateEngine {left : Pending} (change : Engine → Engine)
    (held : Held algorithm pending called now)
    (named : ∀ engine, (change engine).algorithm = engine.algorithm)
    (changes : ∀ engine, Kept pending now.dealt engine → Kept left now.dealt (change engine))
    {post : Unit → Scene → Prop}
    (holds : ∀ after, Held algorithm left called after → post () after) :
    (dealing algorithm).Keeps (updateEngine algorithm change) post now :=
  keeps_books held
    (fun engine kept => (ensures_pure _ _).mpr ⟨named engine, changes engine kept⟩)
    fun _ => holds

/-- How an attempt leaves the scene: the books are kept, and what it answers is as it was told by
what was read last. -/
def Leaves (algorithm : Algorithm) (pending : Pending) (called : Nat)
    (Told : α → Wire.Bytes → Prop) (result : Except Failure α) (after : Scene) : Prop :=
  Held algorithm pending called after ∧ ∀ value, result = .ok value → Told value after.heard

theorem leaves_error {Told : α → Wire.Bytes → Prop} {failure : Failure}
    (held : Held algorithm pending called now) :
    Leaves algorithm pending called Told (.error failure) now :=
  ⟨held, nofun⟩

theorem leaves_ok {Told : α → Wire.Bytes → Prop} {value : α}
    (held : Held algorithm pending called now) (told : Told value now.heard) :
    Leaves algorithm pending called Told (.ok value) now := by
  refine ⟨held, ?_⟩
  rintro _ ⟨⟩
  exact told

/-- An attempt either fails or goes on. -/
theorem keeps_attempt_bind {attempt : Attempt Node α} {next : α → Attempt Node β}
    {First : α → Wire.Bytes → Prop} {Told : β → Wire.Bytes → Prop}
    (first : (dealing algorithm).Keeps attempt.run (Leaves algorithm pending called First) now)
    (rest : ∀ value middle, Held algorithm pending called middle → First value middle.heard →
      (dealing algorithm).Keeps (next value).run (Leaves algorithm pending called Told) middle) :
    (dealing algorithm).Keeps (attempt >>= next).run
      (Leaves algorithm pending called Told) now := by
  rw [keeps_run_bind]
  refine first.mono fun result middle left => ?_
  cases result with
  | ok value => exact rest value middle left.1 (left.2 value rfl)
  | error failure => exact leaves_error left.1

theorem keeps_limit {activity : Activity} {span : Duration} {outer : Option Limit}
    {post : Except Failure Limit → Scene → Prop} (held : Held algorithm pending called now)
    (holds : ∀ limit after, Held algorithm pending called after → post (.ok limit) after) :
    (dealing algorithm).Keeps (limit activity span outer).run post now :=
  keeps_run_limit.mpr (keeps_request .moment held fun _ after held _ => holds _ after held)

theorem keeps_receive (stream : StreamId) (count : Nat) (fault : StreamFault) (limit : Limit)
    (held : Held algorithm pending called now) :
    (dealing algorithm).Keeps (receive stream count fault limit).run
      (Leaves algorithm pending called fun content heard => heard = content) now := by
  refine keeps_run_receive.mpr (keeps_request (.read stream count (some limit.deadline)) held
    fun reading after held heard => ?_)
  cases reading with
  | bytes content => exact leaves_ok held heard
  | ended => exact leaves_error held
  | expired => exact leaves_error held

theorem keeps_receiveFrame (layout : Wire.Layout α) (stream : StreamId) (maximum : Nat)
    (limit : Limit) (held : Held algorithm pending called now) :
    (dealing algorithm).Keeps (receiveFrame layout stream maximum limit).run
      (Leaves algorithm pending called fun value heard =>
        Wire.decodeBody layout heard = .ok value) now := by
  refine keeps_run_receiveFrame (fun _ after => Held algorithm pending called after)
    ((keeps_receive stream 4 .endInNumber limit held).mono fun result after left => ?_)
    (fun _ _ held _ => leaves_error held) fun header middle held _ =>
      (keeps_receive stream _ .endInBlock limit held).mono fun result after left => ?_
  · cases result with
    | ok header => exact left.1
    | error failure => exact leaves_error left.1
  · cases result with
    | error failure => exact leaves_error left.1
    | ok body =>
        have heard := left.2 body rfl
        dsimp only
        cases decoded : Wire.decodeBody layout body with
        | ok value => exact leaves_ok left.1 (heard ▸ decoded)
        | error fault => exact leaves_error left.1

theorem keeps_send (stream : StreamId) (bytes : Wire.Bytes) (limit : Limit)
    (held : Held algorithm pending called now) :
    (dealing algorithm).Keeps (send stream bytes limit).run
      (Leaves algorithm pending called fun _ _ => True) now := by
  refine keeps_run_send.mpr (keeps_request (.write stream bytes (some limit.deadline)) held
    fun writing after held _ => ?_)
  cases writing with
  | written => exact leaves_ok held trivial
  | broken => exact leaves_error held
  | expired => exact leaves_error held

theorem keeps_sendFrame (layout : Wire.Layout α) (stream : StreamId) (value : α) (maximum : Nat)
    (limit : Limit) (held : Held algorithm pending called now) :
    (dealing algorithm).Keeps (sendFrame layout stream value maximum limit).run
      (Leaves algorithm pending called fun _ _ => True) now :=
  keeps_run_sendFrame (fun _ _ => keeps_send _ _ _ held) fun _ _ => leaves_error held

/-- A connection calls a peer if it is one for gossip. Closing it reads nothing. -/
theorem keeps_connected {address : SocketAddress} {tag : Wire.ServiceTag} {patience : Duration}
    {limit : Limit} {attempt : StreamId → Attempt Node α} {Told : α → Wire.Bytes → Prop}
    {more : Nat} (counts : calls (.connect address tag patience limit.deadline) = more)
    (held : Held algorithm pending called now)
    (talks : ∀ stream middle, Held algorithm pending (called + more) middle →
      (dealing algorithm).Keeps (attempt stream).run
        (Leaves algorithm pending (called + more) Told) middle) :
    (dealing algorithm).Keeps (connected address tag patience limit attempt).run
      (Leaves algorithm pending (called + more) Told) now := by
  subst counts
  refine keeps_run_connected.mpr (keeps_request
    (.connect address tag patience limit.deadline) held fun connecting middle held _ => ?_)
  cases connecting with
  | opened stream =>
      refine keeps_run_closing.mpr ((talks stream middle held).mono fun result talked left => ?_)
      apply keeps_request (.close stream) left.1
      intro _ after held heard
      refine ⟨held, fun value same => ?_⟩
      rw [heard]
      exact left.2 value same
  | failed fault => exact leaves_error held
  | expired => exact leaves_error held

theorem keeps_requestRecord (address : SocketAddress) (patience : Duration) (maximum : Nat)
    (held : Held algorithm pending called now) :
    (dealing algorithm).Keeps (requestRecord address patience maximum).run
      (Leaves algorithm pending called fun _ _ => True) now := by
  rw [requestRecord, keeps_run_bind]
  apply keeps_limit held
  intro limit timed held
  apply keeps_connected rfl held
  intro stream opened held
  apply keeps_attempt_bind (keeps_send _ _ _ held)
  intro _ sent held _
  exact (keeps_receiveFrame _ _ _ _ held).mono fun result after left => ⟨left.1, fun _ _ => trivial⟩

/-- One exchange calls one peer, and the reply is what it reads last. -/
theorem keeps_talk (target : PeerRecord) (request : Message) (patience : Duration) (maximum : Nat)
    (held : Held algorithm pending called now) :
    (dealing algorithm).Keeps (talk target request patience maximum).run
      (Leaves algorithm pending (called + 1) fun reply heard =>
        Wire.decodeBody Wire.Layout.message heard = .ok reply) now := by
  rw [talk, keeps_run_bind]
  apply keeps_limit held
  intro limit timed held
  apply keeps_connected rfl held
  intro stream opened held
  apply keeps_attempt_bind (keeps_sendFrame _ _ _ _ _ held)
  intro _ sent held _
  exact keeps_receiveFrame _ _ _ _ held

theorem keeps_bootstrapPeer (held : Held algorithm pending called now)
    {post : Option PeerRecord → Scene → Prop}
    (holds : ∀ found after, Held algorithm pending called after → post found after) :
    (dealing algorithm).Keeps bootstrapPeer post now := by
  simp only [bootstrapPeer, keeps_bind, keeps_get]
  split
  · exact holds _ _ held
  · exact ⟨trivial, holds _ _ ⟨held.running, held.called⟩⟩
  · exact holds _ _ held
  · rw [keeps_bind]
    apply keeps_draw held
    intro place drawn held
    rw [keeps_bind]
    refine keeps_run_reporting.mpr ((keeps_requestRecord _ _ _ held).mono
      fun result asked left => ?_)
    cases result with
    | ok record => exact holds _ asked left.1
    | error failure => exact keeps_report left.1 fun after held => holds _ after held

theorem keeps_seedCache (held : Held algorithm pending called now) {post : Unit → Scene → Prop}
    (holds : ∀ after, Held algorithm pending called after → post () after) :
    (dealing algorithm).Keeps (seedCache algorithm) post now := by
  simp only [seedCache, keeps_bind, keeps_get]
  refine keeps_ite (fun _ => ?_) fun _ => holds now held
  rw [keeps_bind]
  apply keeps_bootstrapPeer held
  intro found asked held
  cases found with
  | none => exact holds asked held
  | some record =>
      simp only [keeps_bind, keeps_get]
      refine keeps_ite (fun _ => ?_) fun _ => holds asked held
      rw [keeps_bind]
      apply keeps_report held
      intro reported held
      refine keeps_books held (fun engine kept => ?_) fun _ => holds
      refine Ensures.bind (kept.seed record _) fun seeded both => ?_
      exact (ensures_pure _ _).mpr both

/-- A reply was taken in, and the round is about to end. -/
def Taken (algorithm : Algorithm) (pending : Pending) (called : Nat) (after : Scene) : Prop :=
  ∃ reply engine, after.node.running? algorithm = some engine ∧
    Accepted pending after.dealt reply engine ∧
    Wire.decodeBody Wire.Layout.message after.heard = .ok reply ∧ after.called = called

theorem keeps_exchange (target : PeerRecord) (held : Held algorithm pending called now)
    {post : Except Failure Nat → Scene → Prop}
    (exchanged : ∀ count after, Taken algorithm pending (called + 1) after → post (.ok count) after)
    (failed : ∀ failure after, Held algorithm pending (called + 1) after →
      post (.error failure) after) :
    (dealing algorithm).Keeps (exchange algorithm target).run post now := by
  simp only [exchange, keeps_run_bind, keeps_run_get, keeps_run_perform]
  apply keeps_draw held
  intro request drawn held
  refine (keeps_talk _ _ _ _ held).mono fun result told left => ?_
  cases result with
  | error failure => exact failed failure told left.1
  | ok reply =>
      dsimp only
      split
      · exact failed _ told left.1
      · -- The round waits for nothing after the merge, so no request comes between it and the end.
        simp only [keeps_run_bind, keeps_run_get, keeps_run_perform]
        refine keeps_onEngine (Accepted pending told.dealt reply) left.1 (fun engine kept => ?_) ?_
        · refine Ensures.bind (kept.accept _ reply) fun accepted both => ?_
          exact (ensures_pure _ _).mpr both
        · intro _ node changed runs accepted
          exact exchanged _ _ ⟨reply, changed, runs, accepted, left.2 reply rfl, left.1.called⟩

theorem keeps_secondTarget {failed : PeerId} (held : Held algorithm pending called now)
    {post : Option PeerRecord → Scene → Prop}
    (holds : ∀ second after, Held algorithm pending called after → post second after) :
    (dealing algorithm).Keeps (secondTarget algorithm failed) post now := by
  simp only [secondTarget, keeps_bind, keeps_get]
  exact keeps_ite (fun _ => keeps_draw held holds) fun _ => holds none now held

/-- A round has ended, and is part of the history. -/
def Closed (algorithm : Algorithm) (outcome : Except Failure Round) (after : Scene) : Prop :=
  ∃ engine, after.node.running? algorithm = some engine ∧
    Kept .none (after.dealt ++ [.round outcome after.called after.heard]) engine

theorem closed_taken (again : Bool) {peer : PeerId} {received : Nat}
    (taken : Taken algorithm ⟨again.toNat, 0⟩ (again.toNat + 1) now) :
    Closed algorithm (.ok (.exchanged peer received again)) now := by
  obtain ⟨reply, engine, runs, accepted, decoded, called⟩ := taken
  obtain ⟨tally, counted, told⟩ := accepted.counted
  refine ⟨engine, runs, accepted.sound, ?_⟩
  rw [told, called]
  exact counted.exchanged decoded

theorem closed_failed (again : Bool) {failure : Failure}
    (held : Held algorithm ⟨again.toNat, 1⟩ (again.toNat + 1) now) :
    Closed algorithm (.error failure) now := by
  obtain ⟨engine, runs, kept⟩ := held.running
  refine ⟨engine, runs, kept.sound, ?_⟩
  rw [held.called]
  exact kept.counted.failed

theorem closed_skipped (held : Held algorithm .none 0 now) :
    Closed algorithm (.ok .skipped) now := by
  obtain ⟨engine, runs, kept⟩ := held.running
  refine ⟨engine, runs, kept.sound, ?_⟩
  rw [held.called]
  exact kept.counted.skipped

theorem keeps_retry (target : PeerRecord) (held : Held algorithm .none 1 now) :
    (dealing algorithm).Keeps (retry algorithm target).run (Closed algorithm) now := by
  simp only [retry, keeps_run_bind, keeps_run_perform]
  apply keeps_updateEngine Engine.retried held (fun _ => rfl) (fun _ => Kept.retried)
  intro begun held
  apply keeps_exchange target held
  · intro count after taken
    exact closed_taken true taken
  · intro failure tried held
    -- The failure is counted before it is reported, and requests may come in between.
    simp only [keeps_run_bind, keeps_run_perform]
    apply keeps_updateEngine Engine.failed held (fun _ => rfl) (fun _ => Kept.lost)
    intro counted held
    exact keeps_report held fun after held => closed_failed true held

theorem keeps_attempts (target : PeerRecord) (held : Held algorithm .none 0 now) :
    (dealing algorithm).Keeps (attempts algorithm target).run (Closed algorithm) now := by
  simp only [attempts, keeps_run_bind, keeps_run_perform]
  apply keeps_exchange target held
  · intro count after taken
    exact closed_taken false taken
  · intro failure tried held
    simp only [keeps_run_bind, keeps_run_perform]
    apply keeps_report held
    intro reported held
    apply keeps_secondTarget held
    intro second chosen held
    cases second with
    | some second => exact keeps_retry second held
    | none =>
        simp only [keeps_run_bind, keeps_run_perform]
        apply keeps_updateEngine Engine.failed held (fun _ => rfl) (fun _ => Kept.lost)
        intro after held
        exact closed_failed false held

theorem keeps_round (held : Held algorithm .none 0 now) :
    (dealing algorithm).Keeps (round algorithm).run (Closed algorithm) now := by
  simp only [round, keeps_run_bind, keeps_run_perform]
  apply keeps_seedCache held
  intro seeded held
  have aging (engine : Engine) (kept : Kept .none seeded.dealt engine) :
      Ensures (do pure (← engine.older.target, engine.older)) fun answered =>
        answered.2.algorithm = engine.algorithm ∧ Kept .none seeded.dealt answered.2 := by
    refine Ensures.bind (ensures_true _) fun target _ => ?_
    exact (ensures_pure _ _).mpr ⟨rfl, kept.older⟩
  apply keeps_books held aging
  intro target aged held
  cases target with
  | none =>
      simp only [keeps_run_bind, keeps_run_perform, keeps_run_pure]
      exact keeps_report held fun after held => closed_skipped held
  | some target =>
      simp only [keeps_run_bind, keeps_run_get]
      exact keeps_run_ite (fun _ => closed_skipped held) fun _ => keeps_attempts target held

end Rules

section Histories

variable {algorithm : Algorithm} {settings : Settings} {owner : PeerId} {clock : Timestamp}
  {first node : Node} {dealt : List Dealt}

theorem Course.kept (course : Course algorithm first node dealt)
    (new : first.running? algorithm = some (Engine.start algorithm settings owner clock)) :
    ∃ engine, node.running? algorithm = some engine ∧ Kept .none dealt engine := by
  induction course with
  | start => exact ⟨_, new, ⟨settings, owner, Engine.sound_start _ _ _ _⟩, counted_zero⟩
  | pass _ passes ih =>
      have idle : Held algorithm .none 0 ⟨_, _, 0, []⟩ := ⟨ih, rfl⟩
      exact (passes.held idle).1.running
  | round _ run ih => exact (keeps_round ⟨ih, rfl⟩).ends run

/-- What an engine tells is an exact account of its history. The rounds with a reply and the failed
rounds are all that turned to a peer; a second attempt counts whether it goes well or not; the size
of the network is the number of peers in the last 64 payloads that were merged. -/
theorem stats_exact (new : first.running? algorithm =
      some (Engine.start algorithm settings owner clock))
    (course : Course algorithm first node dealt) (few : dealt.length < UInt64.size) :
    let engine := node.engine algorithm
    engine.stats.exchanges.toNat = dealt.countP Dealt.isExchanged ∧
    engine.stats.failures.toNat = dealt.countP Dealt.isFailed ∧
    engine.stats.exchanges.toNat + engine.stats.failures.toNat = dealt.countP Dealt.isTried ∧
    engine.stats.fallbackRetries.toNat = dealt.countP Dealt.isRetried ∧
    dealt.countP Dealt.isViaFallback ≤ engine.stats.fallbackRetries.toNat ∧
    engine.stats.requestsServed.toNat = dealt.countP Dealt.isServed ∧
    engine.stats.networkSize = .ofNat ((payloads dealt).rtake 64).flatten.toFinset.card ∧
    engine.stats.cacheSize.toNat = engine.cache.size ∧
    engine.stats.fallbackSize.toNat = (engine.fallback.map PeerCache.size).getD 0 := by
  obtain ⟨engine, runs, ⟨settings, owner, sound⟩, counted⟩ := course.kept new
  rw [engine_of_running? runs]
  have told (property : Dealt → Bool) {count : Nat} (same : count = dealt.countP property) :
      (UInt64.ofNat count).toNat = dealt.countP property := by
    rw [same]
    exact UInt64.toNat_ofNat_of_lt (Nat.lt_of_le_of_lt List.countP_le_length few)
  have exchanges : engine.stats.exchanges.toNat = _ := told _ counted.exchanges
  have failures : engine.stats.failures.toNat = _ := told _ counted.failures
  have retries : engine.stats.fallbackRetries.toNat = _ := told _ counted.retries
  have size : engine.stats.networkSize = .ofNat engine.tally.networkSize := rfl
  refine ⟨exchanges, failures, ?_, retries, ?_, told _ counted.served, ?_, sound.told_sizes⟩
  · rw [exchanges, failures]
    exact exchanged_add_failed dealt
  · rw [retries]
    exact List.countP_mono_left counted.second
  · rw [size, Tally.networkSize_eq_card, counted.observed]
    rfl

end Histories

section Accounts

open Dealings (forgetful newcomer replying)

variable {first : Node}

/-- A node, and the history of its engine. -/
abbrev Account := Node × List Dealt

/-- One more round, while nothing else goes on. -/
def rounded (answer : (request : Request) → request.Reply) (now : Account) : Account :=
  let noting := fun (request : Request) (scene : Scene) =>
    (answer request, scene.noted request (answer request))
  let (outcome, after) :=
    (dealing .arrg).follow noting (Node.round .arrg).run ⟨now.1, now.2, 0, []⟩
  (after.node, after.dealt ++ [.round outcome after.called after.heard])

/-- One more request. -/
def asked (request : Message) (now : Account) : Account :=
  let (outcome, node) :=
    (Round.undisturbed .arrg).play replying (answerWith .arrg request).run now.1
  (node, now.2 ++ [.request request outcome])

theorem course_rounded {now : Account} (course : Course .arrg first now.1 now.2)
    (answer : (request : Request) → request.Reply) :
    Course .arrg first (rounded answer now).1 (rounded answer now).2 :=
  course.round (runs_follow (fun _ _ => Passes.refl _) _ _)

theorem course_asked {now : Account} (course : Course .arrg first now.1 now.2)
    (request : Message) : Course .arrg first (asked request now).1 (asked request now).2 :=
  course.pass ((Passes.refl _).request (runs_play (fun _ node => Round.Spares.refl node) _ _))

/-- Peer 1 can be reached, and nobody else. -/
def reaching : (request : Request) → request.Reply
  | .connect address _ _ _ => if address = .ofNumber 1 then .opened ⟨0⟩ else .expired
  | request => replying request

def silent : (request : Request) → request.Reply := answering .expired fun _ => .ended

/-- A request of peer 2, which tells of itself. -/
def asking : Message :=
  { sender := .numbered 2, receiver := .numbered 0, entries := [.fresh (.numbered 2) ⟨0⟩ 60000]
    isRequest := true, algorithm := "arrg" }

/-- Peer 1 replies, peer 2 asks, somebody sends a reply for a request, peer 2 cannot be reached and
peer 1 replies in its place, and at last nobody can be reached. -/
def account : Account :=
  let met := asked asking (rounded reaching (newcomer, []))
  rounded silent (rounded reaching (asked { asking with isRequest := false } met))

theorem stats_exact_account :
    newcomer.running? .arrg = some (Engine.start .arrg forgetful (.ofNat 0) ⟨0⟩) ∧
    Course .arrg newcomer account.1 account.2 ∧ account.2.length < UInt64.size ∧
    let stats := (account.1.engine .arrg).stats
    stats.exchanges.toNat = 2 ∧ stats.failures.toNat = 1 ∧ stats.fallbackRetries.toNat = 2 ∧
      stats.requestsServed.toNat = 1 ∧ stats.networkSize = 2 := by
  have course : Course .arrg newcomer account.1 account.2 :=
    course_rounded (course_rounded (course_asked (course_asked
      (course_rounded .start reaching) asking) _) reaching) silent
  have few : account.2.length < UInt64.size := by decide +kernel
  obtain ⟨exchanges, failures, -, retries, -, served, size, -⟩ := stats_exact rfl course few
  have counts : account.2.countP Dealt.isExchanged = 2 ∧ account.2.countP Dealt.isFailed = 1 ∧
      account.2.countP Dealt.isRetried = 2 ∧ account.2.countP Dealt.isServed = 1 ∧
      ((payloads account.2).rtake 64).flatten.toFinset.card = 2 := by decide +kernel
  rw [counts.1] at exchanges
  rw [counts.2.1] at failures
  rw [counts.2.2.1] at retries
  rw [counts.2.2.2.1] at served
  rw [counts.2.2.2.2] at size
  exact ⟨rfl, course, few, exchanges, failures, retries, served, size⟩

end Accounts

end Overlay.Node.Ledger
