import Overlay.Node.Job
import Overlay.Proofs.Engine.Payload
import Overlay.Proofs.Node.Round
import Overlay.Proofs.Program.Interleaving
import Overlay.Proofs.Wire.Frame

/-!
What a node deals in with others, round by round and connection by connection, and what that makes
of its engines.

Rounds and connections go on beside each other. Whichever of them goes on when, each engine only
goes through what can become of an engine (`Reached.engines`), so no cache ever outgrows its size
(`engines_bounded`), and what an engine tells others is drawn from it without repetition
(`Reached.tells`).
-/

set_option autoImplicit false

namespace Overlay.Node

/-- What a node does with others. -/
inductive Dealing
  | round (algorithm : Algorithm)
  | accept (stream : StreamId)
  | serve (tag : Wire.ServiceTag) (stream : StreamId)

def Dealing.program : Dealing → Program Node PUnit
  | .round algorithm => do
    let _ ← (Node.round algorithm).run
    pure ()
  | .accept stream => do
    let _ ← (Node.accept stream).run
    pure ()
  | .serve tag stream => Node.serve tag stream

namespace Dealings

open Attempt Chance Interleaving Program Surroundings

variable {α β : Type}

/-- Other work, which leaves the engines alone. -/
structure OtherWork (now after : Node) : Prop where
  settings : after.settings = now.settings
  id : after.record.id = now.record.id
  engines : after.engines = now.engines

/-- What a new node may come to while it deals with others. -/
def Reached (settings : Settings) (own : PeerId) (shared : Shared Node) : Prop :=
  ∃ record clock dice bootstrap membership, record.id = own ∧
    Reachable Dealing.program OtherWork
      (Node.start settings record clock dice bootstrap membership) shared

/-- What can become of an engine, whatever others tell and send. -/
abbrev Grown (settings : Settings) (own : PeerId) (engine : Engine) : Prop :=
  Engine.Reached (fun _ => True) (fun _ => True) settings own engine

/-- What holds of a node at all times. -/
structure Running (settings : Settings) (own : PeerId) (node : Node) : Prop where
  configured : node.settings = settings
  named : node.record.id = own
  engines : ∀ engine ∈ node.engines, Grown settings own engine
  algorithms : node.engines.map (·.algorithm) = settings.algorithms.eraseDups

section Running

variable {settings : Settings} {own : PeerId} {node after : Node} {algorithm : Algorithm}

theorem running_start (record : PeerRecord) (clock : Timestamp) (dice : Dice)
    (bootstrap : Bootstrap) (membership : Option (List PeerRecord)) :
    Running settings record.id
      (Node.start settings record clock dice bootstrap membership) where
  configured := rfl
  named := rfl
  engines := by
    intro engine member
    obtain ⟨algorithm, _, rfl⟩ := List.mem_map.mp member
    exact .start algorithm clock
  algorithms := (List.map_map ..).trans (List.map_id' _)

theorem Running.congr (running : Running settings own node) (same : OtherWork node after) :
    Running settings own after where
  configured := same.settings.trans running.configured
  named := same.id.trans running.named
  engines := by
    rw [same.engines]
    exact running.engines
  algorithms := by
    rw [same.engines]
    exact running.algorithms

/-- The engine that a node looks up, one that it does not run included. -/
theorem Running.engine (running : Running settings own node) (algorithm : Algorithm) :
    Grown settings own (node.engine algorithm) := by
  rcases engine_mem_or_start node algorithm with member | absent
  · exact running.engines _ member
  · rw [absent, running.configured, running.named]
    exact .start algorithm node.clock

theorem Running.withEngine {engine : Engine} (running : Running settings own node)
    (grown : Grown settings own engine) : Running settings own (node.withEngine engine) where
  configured := running.configured
  named := running.named
  engines := by
    intro held member
    rcases mem_withEngine member with rfl | before
    · exact grown
    · exact running.engines held before
  algorithms := (algorithms_withEngine node engine).trans running.algorithms

end Running

section Rules

variable {settings : Settings} {own : PeerId} {algorithm : Algorithm}

/-- A node whose engines are what can become of them. -/
abbrev around (settings : Settings) (own : PeerId) : Surroundings Node (Node × List Event) :=
  amid fun node _ => Running settings own node

/-- Whatever goes on beside it, a program leaves the engines of a node what can become of them. -/
def Respects (settings : Settings) (own : PeerId) (program : Program Node α) : Prop :=
  ∀ now : Node × List Event, Running settings own now.1 →
    (around settings own).Keeps program (fun _ after => Running settings own after.1) now

theorem respects_pure (value : α) : Respects settings own (pure value : Program Node α) :=
  fun _ running => running

theorem respects_get : Respects settings own (get : Program Node Node) :=
  fun _ running => running

theorem respects_ite {condition : Prop} [Decidable condition] {yes no : Program Node α}
    (left : Respects settings own yes) (right : Respects settings own no) :
    Respects settings own (if condition then yes else no) := by
  split
  · exact left
  · exact right

theorem respects_readOnly {program : Program Node α} (readOnly : program.IsReadOnly) :
    Respects settings own program :=
  fun _ running => keeps_readOnly readOnly running fun _ _ running _ => running

theorem respects_report (event : Event) : Respects settings own (Program.report event) :=
  respects_readOnly (isReadOnly_request _)

theorem Respects.bind {program : Program Node α} {next : α → Program Node β}
    (first : Respects settings own program) (rest : ∀ value, Respects settings own (next value)) :
    Respects settings own (program >>= next) := by
  intro now running
  rw [keeps_bind]
  exact (first now running).mono fun value after running => rest value after running

theorem Respects.ignored {program : Program Node α} (respects : Respects settings own program) :
    Respects settings own (do let _ ← program; pure PUnit.unit) :=
  respects.bind fun _ => respects_pure _

/-- An attempt either fails or goes on. -/
theorem Respects.attempt_bind {attempt : Attempt Node α} {next : α → Attempt Node β}
    (first : Respects settings own attempt.run)
    (rest : ∀ value, Respects settings own (next value).run) :
    Respects settings own (attempt >>= next).run := by
  intro now running
  rw [keeps_run_bind]
  refine (first now running).mono fun result after running => ?_
  cases result with
  | ok value => exact rest value after running
  | error failure => exact running

theorem Respects.perform {program : Program Node α} (respects : Respects settings own program) :
    Respects settings own (Attempt.perform program).run :=
  fun now running => (keeps_run_perform _).mpr (respects now running)

theorem Respects.reporting {event : Failure → Event} {attempt : Attempt Node α}
    (respects : Respects settings own attempt.run) :
    Respects settings own (Attempt.reporting event attempt).run := by
  refine respects.bind fun result => ?_
  cases result with
  | ok value => exact respects_pure _
  | error failure => exact (respects_report _).bind fun _ => respects_pure _

theorem respects_draw (chance : Chance α) : Respects settings own (draw chance) := by
  intro now running
  have drawn (dice : Dice) : Running settings own { now.1 with dice } :=
    running.congr ⟨rfl, rfl, rfl⟩
  exact ⟨drawn _, drawn _⟩

/-- An engine may be changed into anything that can become of it. -/
theorem respects_onEngine {change : Engine → Chance (α × Engine)}
    (grows : ∀ engine, Grown settings own engine →
      (change engine).Ensures fun answered => Grown settings own answered.2) :
    Respects settings own (onEngine algorithm change) := by
  intro now running
  simp only [onEngine, keeps_bind, keeps_get]
  have drawn (dice : Dice) : Running settings own { now.1 with dice } :=
    running.congr ⟨rfl, rfl, rfl⟩
  have changed (dice : Dice) : Running settings own
      ({ now.1 with dice }.withEngine (change (now.1.engine algorithm) now.1.dice).1.2) :=
    (drawn dice).withEngine (grows _ (running.engine algorithm) now.1.dice)
  exact ⟨drawn _, changed _, changed _⟩

theorem respects_updateEngine {change : Engine → Engine}
    (grows : ∀ engine, Grown settings own engine → Grown settings own (change engine)) :
    Respects settings own (updateEngine algorithm change) :=
  respects_onEngine fun engine grown _ => grows engine grown

theorem respects_bootstrapPeer : Respects settings own bootstrapPeer := by
  intro now running
  simp only [bootstrapPeer, keeps_bind, keeps_get]
  split
  · exact running
  · next all next _ =>
      have rotated : Running settings own { now.1 with bootstrap := .records all (next + 1) } :=
        running.congr ⟨rfl, rfl, rfl⟩
      exact ⟨rotated, rotated⟩
  · exact running
  · rw [keeps_bind]
    refine (respects_draw _ now running).mono fun place drawn running => ?_
    refine respects_readOnly ?_ drawn running
    exact (readOnly_reporting (readOnly_requestRecord _ _ _)).bind fun _ => trivial

theorem respects_seedCache : Respects settings own (seedCache algorithm) := by
  refine respects_get.bind fun node => respects_ite ?_ (respects_pure _)
  refine respects_bootstrapPeer.bind fun found => ?_
  cases found with
  | none => exact respects_pure _
  | some record =>
      refine respects_get.bind fun asked => respects_ite ?_ (respects_pure _)
      refine (respects_report _).bind fun _ => ?_
      exact respects_onEngine fun engine grown dice => grown.step (.seed record _ dice trivial)

theorem respects_exchange (target : PeerRecord) :
    Respects settings own (exchange algorithm target).run := by
  refine respects_get.attempt_bind fun node => ?_
  refine (respects_draw _).perform.attempt_bind fun request => ?_
  refine (respects_readOnly (readOnly_talk _ _ _ _)).attempt_bind fun reply => ?_
  split
  · exact respects_pure _
  · refine respects_get.attempt_bind fun told => ?_
    refine (respects_onEngine fun engine grown dice => ?_).perform.attempt_bind fun _ =>
      respects_pure _
    exact grown.step (.accept _ reply dice trivial)

theorem respects_secondTarget (failed : PeerId) :
    Respects settings own (secondTarget algorithm failed) :=
  respects_get.bind fun _ => respects_ite (respects_draw _) (respects_pure _)

theorem respects_failed : Respects settings own (updateEngine algorithm Engine.failed) :=
  respects_updateEngine fun _ grown => grown.step .failed

theorem respects_retry (target : PeerRecord) :
    Respects settings own (retry algorithm target).run := by
  have retried : Respects settings own (updateEngine algorithm Engine.retried) :=
    respects_updateEngine fun _ grown => grown.step .retried
  refine retried.perform.attempt_bind fun _ => ?_
  refine (respects_exchange target).perform.attempt_bind fun result => ?_
  cases result with
  | ok received => exact respects_pure _
  | error failure =>
      refine respects_failed.perform.attempt_bind fun _ => ?_
      exact (respects_report _).perform.attempt_bind fun _ => respects_pure _

theorem respects_attempts (target : PeerRecord) :
    Respects settings own (attempts algorithm target).run := by
  refine (respects_exchange target).perform.attempt_bind fun result => ?_
  cases result with
  | ok received => exact respects_pure _
  | error failure =>
      refine (respects_report _).perform.attempt_bind fun _ => ?_
      refine (respects_secondTarget _).perform.attempt_bind fun second => ?_
      cases second with
      | some second => exact respects_retry second
      | none => exact respects_failed.perform.attempt_bind fun _ => respects_pure _

theorem respects_round : Respects settings own (Node.round algorithm).run := by
  refine respects_seedCache.perform.attempt_bind fun _ => ?_
  refine (respects_onEngine fun engine grown dice => grown.step .older).perform.attempt_bind
    fun target => ?_
  cases target with
  | none => exact (respects_report _).perform.attempt_bind fun _ => respects_pure _
  | some target =>
      refine respects_get.attempt_bind fun node => ?_
      split
      · exact respects_pure _
      · exact respects_attempts target

theorem respects_answer (request : Message) : Respects settings own (answer request).run := by
  have named : Respects settings own (algorithmNamed request.algorithm).run := by
    refine respects_get.attempt_bind fun node => ?_
    split
    · split <;> exact respects_pure _
    · exact respects_pure _
  refine named.attempt_bind fun algorithm => respects_get.attempt_bind fun node => ?_
  have answered : Respects settings own
      (onEngine algorithm fun engine => engine.answer node.record node.clock request) :=
    respects_onEngine fun engine grown dice => grown.step (.answer _ _ _ dice trivial)
  split
  · exact respects_pure _
  · split
    · exact (respects_report _).perform.attempt_bind fun _ => answered.perform
    · exact answered.perform

theorem respects_serveGossip (stream : StreamId) (outer : Option Limit) :
    Respects settings own (serveGossip stream outer).run := by
  refine respects_get.attempt_bind fun node => ?_
  refine (respects_readOnly (readOnly_limit _ _ _)).attempt_bind fun reading => ?_
  refine (respects_readOnly (readOnly_receiveFrame _ _ _ _)).attempt_bind fun request => ?_
  refine (respects_answer request).reporting.attempt_bind fun reply => ?_
  refine (respects_readOnly (readOnly_limit _ _ _)).attempt_bind fun writing => ?_
  exact respects_readOnly (readOnly_sendFrame _ _ _ _ _)

theorem respects_dispatch (tag : Wire.ServiceTag) (stream : StreamId) (outer : Option Limit) :
    Respects settings own (dispatch tag stream outer).run := by
  cases tag with
  | gossip => exact respects_serveGossip stream outer
  | vivaldi => exact respects_readOnly (readOnly_serveEcho stream outer)
  | nodeInfo => exact respects_readOnly (readOnly_serveRecord stream outer)

theorem respects_accept (stream : StreamId) :
    Respects settings own (Node.accept stream).run := by
  refine respects_get.attempt_bind fun node => ?_
  refine (respects_readOnly (readOnly_limit _ _ _)).attempt_bind fun limit => ?_
  refine (respects_readOnly (readOnly_receiveByte _ _)).attempt_bind fun byte => ?_
  split
  · exact respects_dispatch _ _ _
  · exact (respects_report _).perform.attempt_bind fun _ => respects_pure _

/-- Whatever a node deals in, its engines only go through what can become of them. -/
theorem respects_dealing (dealing : Dealing) : Respects settings own dealing.program := by
  cases dealing with
  | round algorithm => exact respects_round.ignored
  | accept stream => exact (respects_accept stream).ignored
  | serve tag stream =>
      have served : Respects settings own (Attempt.closing stream (dispatch tag stream none)).run :=
        (respects_dispatch tag stream none).bind fun _ =>
          (respects_readOnly (isReadOnly_request _)).bind fun _ => respects_pure _
      exact served.ignored

end Rules

section Bounds

variable {settings : Settings} {own : PeerId} {shared : Shared Node}

theorem Reached.running (reached : Reached settings own shared) :
    Running settings own shared.state := by
  obtain ⟨record, clock, dice, bootstrap, membership, rfl, reachable⟩ := reached
  refine @Reachable.holds _ _ (fun node _ => Running settings record.id node) _ _ _ _ reachable
    (running_start record clock dice bootstrap membership) ?_ ?_ ?_
  · exact fun dealing _ _ running => (respects_dealing dealing _ running).mono fun _ _ _ => trivial
  · exact fun _ _ _ running works => running.congr works
  · exact fun _ _ _ running => running

/-- Every engine of a node is at any time what can become of an engine. -/
theorem Reached.engines (reached : Reached settings own shared) :
    ∀ engine ∈ shared.state.engines, Grown settings own engine := reached.running.engines

/-- Whatever a node deals in, each of its engines tells others what it has to. -/
theorem Reached.tells (reached : Reached settings own shared) :
    ∀ engine ∈ shared.state.engines, ∀ now receiver,
      engine.Tells shared.state.record now receiver fun message =>
        engine.Exact shared.state.record now message.entries := by
  intro engine member now receiver
  have sound := (reached.engines engine member).sound
  have named : shared.state.record.id = engine.owner :=
    reached.running.named.trans sound.owned.symm
  exact Engine.message_exact sound.cache named now receiver

/-- Whatever a node deals in and whichever of its dealings goes on when, none of its caches holds
more than its settings say. Those who answered lately are not more than the settings say either,
but for the last one, who is kept in any case. -/
theorem engines_bounded (reached : Reached settings own shared) :
    ∀ engine ∈ shared.state.engines, engine.cache.size ≤ settings.cacheSize.toNat ∧
      ∀ pool, engine.fallback = some pool →
        pool.size ≤ max settings.fallbackCacheSize.toNat 1 := by
  intro engine member
  have sound := (reached.engines engine member).sound
  refine ⟨?_, fun pool kept => (sound.reserve pool kept).bounded⟩
  rw [← sound.capacity]
  exact sound.cache.bounded

end Bounds

section Keepsake

/-- A node that is to keep nobody for second attempts, and is told of a peer. -/
def forgetful : Settings := { Settings.brisk with fallbackCacheSize := 0, algorithms := [.arrg] }

def newcomer : Node := Node.start forgetful (.numbered 0) ⟨0⟩ .last (.records [.numbered 1] 0) none

/-- The peer replies to a request of the node, and tells of itself only. -/
def replying : (request : Request) → request.Reply :=
  let reply : Message :=
    { sender := .numbered 1, receiver := .numbered 0, entries := [.fresh (.numbered 1) ⟨0⟩ 60000]
      isRequest := false, algorithm := "arrg" }
  let frame := Wire.frame Wire.Layout.message reply
  answering (.opened ⟨0⟩) fun count =>
    .bytes (if count = 4 then frame.take 4 else frame.drop 4)

/-- The node after one round. -/
def acquainted : Shared Node :=
  let now := outcome replying (Dealing.round .arrg).program (newcomer, [])
  ⟨now.1, now.2, [.done ⟨⟩]⟩

theorem reached_acquainted : Reached forgetful (.ofNat 0) acquainted := by
  refine ⟨.numbered 0, ⟨0⟩, .last, .records [.numbered 1] 0, none, rfl, ?_⟩
  exact Reachable.start.runs replying (Dealing.round .arrg)

theorem engines_bounded_acquainted :
    Reached forgetful (.ofNat 0) acquainted ∧
      ∀ engine ∈ acquainted.state.engines, engine.cache.size ≤ 5 ∧
        ∀ pool, engine.fallback = some pool → pool.size ≤ 1 :=
  ⟨reached_acquainted, engines_bounded reached_acquainted⟩

/-- The peer that answered is kept where nobody should be. -/
theorem fallback_exceeds : ¬ ∀ (settings : Settings) (own : PeerId) (shared : Shared Node),
    settings.validate = .ok settings → Reached settings own shared →
      ∀ engine ∈ shared.state.engines, engine.cache.size ≤ settings.cacheSize.toNat ∧
        ∀ pool, engine.fallback = some pool → pool.size ≤ settings.fallbackCacheSize.toNat := by
  intro always
  have within := always forgetful (.ofNat 0) acquainted rfl reached_acquainted
  have kept : ∃ engine ∈ acquainted.state.engines, ∃ pool ∈ engine.fallback, 0 < pool.size := by
    decide +kernel
  obtain ⟨engine, member, pool, held, positive⟩ := kept
  have none_kept := (within engine member).2 pool held
  exact absurd positive (Nat.not_lt.mpr none_kept)

end Keepsake

end Dealings

end Overlay.Node
