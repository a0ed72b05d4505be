import Overlay.Proofs.Engine
import Overlay.Proofs.Node.State
import Overlay.Proofs.Peer
import Overlay.Proofs.Program.Play
import Overlay.Proofs.Program.ReadOnly

/-!
Rounds of gossip that fail.

Nothing that a round does before it knows that its exchange went well touches what its engine has
learned. Whatever goes wrong in one attempt or in two, the engine is left with at most one more peer
from outside, everything in its cache one round older, and one more failure in its tally
(`round_failed`).
-/

set_option autoImplicit false

namespace Overlay.Node

/-- The engine of an algorithm, if the node runs it. -/
def running? (node : Node) (algorithm : Algorithm) : Option Engine :=
  node.engines.find? (·.algorithm = algorithm)

theorem engine_of_running? {node : Node} {algorithm : Algorithm} {engine : Engine}
    (runs : node.running? algorithm = some engine) : node.engine algorithm = engine := by
  rw [Node.engine, ← running?, runs, Option.getD_some]

theorem algorithm_of_running? {node : Node} {algorithm : Algorithm} {engine : Engine}
    (runs : node.running? algorithm = some engine) : engine.algorithm = algorithm := by
  simpa using List.find?_some runs

theorem running?_withEngine {node : Node} {algorithm : Algorithm} {engine changed : Engine}
    (runs : node.running? algorithm = some engine) (named : changed.algorithm = algorithm) :
    (node.withEngine changed).running? algorithm = some changed := by
  rw [running?, find?_withEngine, ← running?, runs, Option.map_some,
    algorithm_of_running? runs, if_pos named.symm]

/-- An engine that was changed with random choices is the one that runs from then on. -/
theorem running?_changed {node : Node} {algorithm : Algorithm} {engine changed : Engine}
    (dice : Dice) (runs : node.running? algorithm = some engine)
    (named : changed.algorithm = engine.algorithm) :
    (({ node with dice } : Node).withEngine changed).running? algorithm = some changed := by
  have before : ({ node with dice } : Node).running? algorithm = some engine := runs
  exact running?_withEngine before (named.trans (algorithm_of_running? runs))

namespace Round

open Attempt Chance PeerCache Program Surroundings

variable {algorithm : Algorithm} {α : Type}

/-- The engine of an algorithm was left alone. -/
def Spares (algorithm : Algorithm) (now after : Node) : Prop :=
  after.running? algorithm = now.running? algorithm

theorem Spares.refl (now : Node) : Spares algorithm now now := rfl

theorem Spares.trans {first second third : Node} (before : Spares algorithm first second)
    (after : Spares algorithm second third) : Spares algorithm first third :=
  Eq.trans after before

/-- A node that does other work while a round waits, but serves no request to the engine of the
round. Whatever the round asks for may be answered in any way. -/
def undisturbed (algorithm : Algorithm) : Surroundings Node Node where
  look := id
  leave _ node := node
  Answers _ now _ after := Spares algorithm now after
  Accepts _ _ := True
  Admits _ _ := True

variable {now : Node} {engine : Engine}

@[simp] theorem look_undisturbed : (undisturbed algorithm).look now = now := rfl

theorem keeps_readOnly {program : Program Node α} (readOnly : program.IsReadOnly)
    (runs : now.running? algorithm = some engine) {post : α → Node → Prop}
    (holds : ∀ value after, after.running? algorithm = some engine → post value after) :
    (undisturbed algorithm).Keeps program post now :=
  readOnly.keeps Spares.refl (fun _ _ _ => Spares.trans) (fun _ _ => trivial)
    (fun _ _ _ _ answer => answer) fun value after spares =>
      holds value after (Eq.trans spares runs)

theorem keeps_report {event : Event} (runs : now.running? algorithm = some engine)
    {post : Unit → Node → Prop}
    (holds : ∀ after, after.running? algorithm = some engine → post () after) :
    (undisturbed algorithm).Keeps (Program.report event) post now :=
  keeps_readOnly (isReadOnly_request _) runs fun _ => holds

theorem keeps_draw {chance : Chance α} (runs : now.running? algorithm = some engine)
    {post : α → Node → Prop}
    (holds : ∀ value after, after.running? algorithm = some engine → post value after) :
    (undisturbed algorithm).Keeps (draw chance) post now :=
  ⟨trivial, holds _ _ runs⟩

theorem keeps_onEngine {change : Engine → Chance (α × Engine)} (Changes : Engine → Prop)
    (runs : now.running? algorithm = some engine)
    (ensured : (change engine).Ensures fun answered =>
      answered.2.algorithm = engine.algorithm ∧ Changes answered.2)
    {post : α → Node → Prop}
    (holds : ∀ value after changed, after.running? algorithm = some changed → Changes changed →
      post value after) :
    (undisturbed algorithm).Keeps (onEngine algorithm change) post now := by
  have same := engine_of_running? runs
  subst same
  obtain ⟨named, changes⟩ := ensured now.dice
  exact ⟨trivial, trivial, holds _ _ _ (running?_changed _ runs named) changes⟩

/-- A copy that a round may add to the cache of its engine, of a peer from outside. -/
structure Newcomer (node : Node) (engine : Engine) (copy : Entry) : Prop where
  configured : node.bootstrap ≠ .none
  /-- Nobody has to go for it. -/
  room : engine.cache.entries.length < engine.cache.capacity
  young : node.clock.millis.toNat - engine.startedAt.millis.toNat <
    engine.settings.bootstrapWindow.toNat
  foreign : copy.record.id ≠ engine.cache.owner
  unknown : ∀ held ∈ engine.cache.entries, held.record.id ≠ copy.record.id
  age : copy.age = 0
  expiresAt : copy.expiresAt.millis.toNat =
    min (node.clock.millis.toNat + engine.settings.entryLifetime.toNat) (UInt64.size - 1)

/-- An engine with more copies in its cache, behind those that it held. -/
def joined (engine : Engine) (copies : List Entry) : Engine :=
  { engine with cache := { engine.cache with entries := engine.cache.entries ++ copies } }

@[simp] theorem joined_nil (engine : Engine) : joined engine [] = engine := by
  rw [joined, List.append_nil]

theorem newcomer_fresh {record : PeerRecord} (configured : now.bootstrap ≠ .none)
    (wanted : engine.wantsSeed now.clock) (news : engine.isNews record) :
    Newcomer now engine (engine.fresh record now.clock) := by
  rw [Engine.wantsSeed, Bool.and_eq_true_iff] at wanted
  have unknown : record.id ≠ engine.cache.owner ∧
      ∀ held ∈ engine.cache.entries, held.id ≠ record.id := by
    simpa [Engine.isNews, Engine.owner, contains] using news
  have young := UInt64.lt_iff_toNat_lt.mp (of_decide_eq_true wanted.2)
  rw [Timestamp.toNat_since] at young
  exact ⟨configured, of_decide_eq_true wanted.1, young, unknown.1, unknown.2, rfl,
    Timestamp.toNat_plus _ _⟩

/-- A newcomer is added behind those that are there, and all of them stay. -/
theorem seed_news {record : PeerRecord} {clock : Timestamp}
    (newcomer : Newcomer now engine (engine.fresh record clock)) :
    (engine.seed record clock).Ensures fun seeded =>
      seeded = joined engine [engine.fresh record clock] := by
  have unknown : record.id ∉ ids engine.cache.entries := by
    rintro member
    obtain ⟨held, there, same⟩ := mem_ids.mp member
    exact newcomer.unknown held there same
  refine (add_news (engine.fresh record clock) newcomer.foreign unknown newcomer.room).bind
    fun answered added => (ensures_pure _ _).mpr ?_
  rw [added, joined]

theorem keeps_bootstrapPeer (runs : now.running? algorithm = some engine)
    {post : Option PeerRecord → Node → Prop}
    (holds : ∀ found after, after.running? algorithm = some engine → post found after) :
    (undisturbed algorithm).Keeps bootstrapPeer post now := by
  simp only [bootstrapPeer, keeps_bind, keeps_get]
  split
  · exact holds _ _ runs
  · exact ⟨trivial, holds _ _ runs⟩
  · exact holds _ _ runs
  · simp only [keeps_bind]
    refine keeps_draw runs fun place drawn runs => ?_
    refine keeps_readOnly ?_ runs fun result after runs => holds _ after runs
    exact (readOnly_reporting (readOnly_requestRecord _ _ _)).bind fun _ => trivial

theorem keeps_seedCache (runs : now.running? algorithm = some engine) {post : Unit → Node → Prop}
    (holds : ∀ after newcomer, (∀ copy ∈ newcomer, Newcomer now engine copy) →
      after.running? algorithm = some (joined engine (Option.toList newcomer)) → post () after) :
    (undisturbed algorithm).Keeps (seedCache algorithm) post now := by
  have same (after : Node) (runs : after.running? algorithm = some engine) : post () after :=
    holds after none nofun (by rwa [Option.toList_none, joined_nil])
  simp only [seedCache, keeps_bind, keeps_get]
  refine keeps_ite (fun wanted => ?_) fun _ => same now runs
  rw [look_undisturbed, engine_of_running? runs, Bool.and_eq_true_iff] at wanted
  have configured : now.bootstrap ≠ .none := by
    intro absent
    rw [absent] at wanted
    exact Bool.false_ne_true wanted.1
  rw [keeps_bind]
  refine keeps_bootstrapPeer runs fun found asked askedRuns => ?_
  cases found with
  | none => exact same asked askedRuns
  | some record =>
      simp only [keeps_bind, keeps_get]
      refine keeps_ite (fun news => ?_) fun _ => same asked askedRuns
      rw [look_undisturbed, engine_of_running? askedRuns] at news
      rw [keeps_bind]
      refine keeps_report askedRuns fun reported reportedRuns => ?_
      have newcomer := newcomer_fresh configured wanted.2 news
      refine keeps_onEngine (· = joined engine [engine.fresh record now.clock]) reportedRuns ?_ ?_
      · refine (seed_news newcomer).bind fun seeded same => (ensures_pure _ _).mpr ?_
        rw [same]
        exact ⟨rfl, rfl⟩
      · rintro ⟨⟩ after _ afterRuns rfl
        refine holds after (some (engine.fresh record now.clock)) ?_ afterRuns
        rintro _ ⟨⟩
        exact newcomer

theorem keeps_exchange {target : PeerRecord} (runs : now.running? algorithm = some engine)
    {post : Except Failure Nat → Node → Prop} (exchanged : ∀ count after, post (.ok count) after)
    (failed : ∀ failure after, after.running? algorithm = some engine →
      post (.error failure) after) :
    (undisturbed algorithm).Keeps (exchange algorithm target).run post now := by
  simp only [exchange, keeps_run_bind, keeps_run_get, keeps_run_perform]
  refine keeps_draw runs fun request drawn runs => ?_
  refine keeps_readOnly (readOnly_talk _ _ _ _) runs fun result told runs => ?_
  cases result with
  | error failure => exact failed failure told runs
  | ok reply =>
      dsimp only
      split
      · exact failed _ told runs
      · simp only [keeps_run_bind, keeps_run_get, keeps_run_perform]
        exact ⟨trivial, trivial, exchanged _ _⟩

/-- An engine whose round has failed for good, after so many second attempts. -/
def lost (engine : Engine) (retries : Nat) : Engine :=
  { engine with
    tally := { engine.tally with
      failures := engine.tally.failures + 1
      fallbackRetries := engine.tally.fallbackRetries + retries } }

theorem keeps_updateEngine {change : Engine → Engine}
    (runs : now.running? algorithm = some engine)
    (named : (change engine).algorithm = engine.algorithm) {post : Unit → Node → Prop}
    (holds : ∀ after, after.running? algorithm = some (change engine) → post () after) :
    (undisturbed algorithm).Keeps (updateEngine algorithm change) post now := by
  refine keeps_onEngine (· = change engine) runs ?_ ?_
  · exact (ensures_pure ((), change engine) _).mpr ⟨named, rfl⟩
  · rintro ⟨⟩ after changed runs rfl
    exact holds after runs

theorem keeps_secondTarget {failed : PeerId} (runs : now.running? algorithm = some engine)
    {post : Option PeerRecord → Node → Prop}
    (holds : ∀ second after, after.running? algorithm = some engine → post second after) :
    (undisturbed algorithm).Keeps (secondTarget algorithm failed) post now := by
  simp only [secondTarget, keeps_bind, keeps_get]
  exact keeps_ite (fun _ => keeps_draw runs holds) fun _ => holds none now runs

theorem keeps_retry {target : PeerRecord} (runs : now.running? algorithm = some engine)
    {post : Except Failure Round → Node → Prop}
    (exchanged : ∀ outcome after, post (.ok outcome) after)
    (failed : ∀ failure after, after.running? algorithm = some (lost engine 1) →
      post (.error failure) after) :
    (undisturbed algorithm).Keeps (retry algorithm target).run post now := by
  simp only [retry, keeps_run_bind, keeps_run_perform]
  refine keeps_updateEngine runs rfl fun begun runs => ?_
  refine keeps_exchange runs (fun count after => exchanged _ after) fun failure tried runs => ?_
  simp only [keeps_run_bind, keeps_run_perform]
  refine keeps_updateEngine runs rfl fun counted runs => keeps_report runs fun after runs => ?_
  exact failed failure after runs

theorem keeps_attempts {target : PeerRecord} (runs : now.running? algorithm = some engine)
    {post : Except Failure Round → Node → Prop}
    (exchanged : ∀ outcome after, post (.ok outcome) after)
    (failed : ∀ failure after retries, retries ≤ 1 →
      after.running? algorithm = some (lost engine retries) → post (.error failure) after) :
    (undisturbed algorithm).Keeps (attempts algorithm target).run post now := by
  simp only [attempts, keeps_run_bind, keeps_run_perform]
  refine keeps_exchange runs (fun count after => exchanged _ after) fun failure tried runs => ?_
  simp only [keeps_run_bind, keeps_run_perform]
  refine keeps_report runs fun reported runs => ?_
  refine keeps_secondTarget runs fun second chosen runs => ?_
  cases second with
  | some second =>
      exact keeps_retry runs exchanged fun failure after => failed failure after 1 (Nat.le_refl 1)
  | none =>
      simp only [keeps_run_bind, keeps_run_perform]
      refine keeps_updateEngine runs rfl fun after runs => ?_
      exact failed failure after 0 (Nat.zero_le 1) runs

/-- What a round that failed for good has left of its engine. -/
structure Untaught (node : Node) (engine after : Engine) : Prop where
  /-- All but the cache and the tally is as it was, the peers for second attempts included. -/
  frame : after = { engine with cache := after.cache, tally := after.tally }
  /-- The cache holds what it held and one newcomer at most, each copy in its place and one round
  older. -/
  cache : ∃ newcomer : Option Entry, (∀ copy ∈ newcomer, Newcomer node engine copy) ∧
    List.Forall₂ Entry.Aged (engine.cache.entries ++ newcomer.toList) after.cache.entries ∧
    after.cache = { engine.cache with entries := after.cache.entries }
  /-- One failure was counted, with the second attempt if there was one. -/
  tally : ∃ retries ≤ 1, after.tally = { engine.tally with
    failures := engine.tally.failures + 1
    fallbackRetries := engine.tally.fallbackRetries + retries }

theorem lost_untaught {node : Node} {newcomer : Option Entry} {retries : Nat}
    (outside : ∀ copy ∈ newcomer, Newcomer node engine copy) (bound : retries ≤ 1) :
    Untaught node engine (lost (joined engine newcomer.toList).older retries) where
  frame := rfl
  cache := ⟨newcomer, outside, Entry.forall₂_aged _, rfl⟩
  tally := ⟨retries, bound, rfl⟩

theorem keeps_round (runs : now.running? algorithm = some engine) :
    (undisturbed algorithm).Keeps (round algorithm).run (fun result after =>
      ∀ failure, result = .error failure →
        ∃ changed, after.running? algorithm = some changed ∧ Untaught now engine changed) now := by
  simp only [round, keeps_run_bind, keeps_run_perform]
  refine keeps_seedCache runs fun seeded newcomer outside runs => ?_
  refine keeps_onEngine (· = (joined engine newcomer.toList).older) runs ?_ ?_
  · refine (ensures_true _).bind fun target _ => (ensures_pure _ _).mpr ⟨rfl, rfl⟩
  rintro target aged _ runs rfl
  cases target with
  | none =>
      simp only [keeps_run_bind, keeps_run_perform, keeps_run_pure]
      refine keeps_report runs fun after _ failure impossible => ?_
      cases impossible
  | some target =>
      simp only [keeps_run_bind, keeps_run_get]
      refine keeps_run_ite (fun _ failure impossible => ?_) fun _ => ?_
      · cases impossible
      refine keeps_attempts runs (fun outcome after failure impossible => ?_) ?_
      · cases impossible
      · rintro failure after retries bound runs _ ⟨⟩
        exact ⟨_, runs, lost_untaught outside bound⟩

/-- A round that failed has exchanged nothing, whatever went wrong and at whichever attempt. -/
theorem round_failed {node after : Node} {failure : Failure}
    (runs : node.running? algorithm = some engine)
    (run : (undisturbed algorithm).Runs (round algorithm).run node (.error failure) after) :
    ∃ changed, after.running? algorithm = some changed ∧ Untaught node engine changed :=
  (keeps_round runs).ends run failure rfl

section Failure

/-- An engine that knows one peer, and another one for second attempts. -/
def acquainted : Engine :=
  let engine := Engine.start .arrg .brisk (.ofNat 0) ⟨0⟩
  { engine with
    cache := { engine.cache with entries := [engine.fresh (.numbered 1) ⟨0⟩] }
    fallback := engine.fallback.map fun pool =>
      { pool with entries := [engine.fresh (.numbered 2) ⟨0⟩] } }

/-- A node with that engine, which is told of a third peer. -/
def isolated : Node :=
  let node := Node.start .brisk (.numbered 0) ⟨0⟩ .last (.records [.numbered 3] 0) none
  { node with engines := [acquainted] }

/-- A round in which no peer can be reached. -/
def cutOff : Except Failure Round × Node :=
  (undisturbed .arrg).play (answering .expired fun _ => .ended) (round .arrg).run isolated

example : (cutOff.2.running? .arrg).map (fun engine => (engine.cache.entries.length,
    engine.tally.failures, engine.tally.fallbackRetries)) = some (2, 1, 1) := by decide +kernel

theorem round_failed_cutOff :
    isolated.running? .arrg = some acquainted ∧
    (undisturbed .arrg).Runs (round .arrg).run isolated (.error (.timeout .exchange)) cutOff.2 ∧
    ∃ changed, cutOff.2.running? .arrg = some changed ∧
      Untaught isolated acquainted changed := by
  have run : (undisturbed .arrg).Runs (round .arrg).run isolated cutOff.1 cutOff.2 :=
    runs_play (fun _ now => Spares.refl now) _ isolated
  have failed : cutOff.1 = .error (.timeout .exchange) := by decide +kernel
  rw [failed] at run
  exact ⟨rfl, run, round_failed rfl run⟩

end Failure

end Round

end Overlay.Node
