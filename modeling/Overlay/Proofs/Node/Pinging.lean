import Overlay.Node.Job
import Overlay.Proofs.Node.Maintenance
import Overlay.Proofs.Node.Probe
import Overlay.Proofs.Node.Tracking

/-!
The task that pings a neighbor.

A task takes one turn after the other and exits by itself once its peer is lost, or when the
neighbor was given up. It never leaves a neighbor behind that looks alive, and it never pings a peer
that keeps silent for longer than it has to (`task_exits`). The pings of a turn are not part of its
answer, so they are counted on `pingedTurn`, which is the same turn (`trackerTurn_eq`).
-/

set_option autoImplicit false

namespace Overlay.Node.Pinging

open Attempt Program Surroundings

/-- How a ping ended. -/
abbrev Outcome : Type := Except Failure Binary64

/-- The number of pings that failed since the last one that went well. -/
def streak (pings : List Outcome) : Nat := Tracker.streak (pings.map .pinged)

@[simp] theorem streak_succeeded (pings : List Outcome) (roundTrip : Binary64) :
    streak (pings ++ [.ok roundTrip]) = 0 := by
  rw [streak, List.map_append]
  exact Tracker.streak_succeeded _ roundTrip

@[simp] theorem streak_failed (pings : List Outcome) (failure : Failure) :
    streak (pings ++ [.error failure]) = streak pings + 1 := by
  rw [streak, List.map_append]
  exact Tracker.streak_failed _ failure

theorem streak_silent (past : List Outcome) (failing : List Failure) :
    streak (past ++ failing.map .error) = streak past + failing.length := by
  induction failing using List.reverseRecOn with
  | nil => rw [List.map_nil, List.append_nil, List.length_nil, Nat.add_zero]
  | append_singleton failing failure ih =>
      rw [List.map_append, ← List.append_assoc, List.map_singleton, streak_failed, ih,
        List.length_append, List.length_singleton, Nat.add_assoc]

/-- A turn of a tracker that answers also how its pings ended. -/
def pingedTurn (serial : Nat) : Program Node (Bool × List Outcome) := do
  let tracker := (← get).tracker serial
  if tracker.ended then finish tracker []
  else do
    let outcome ← (pingOnce serial).run
    let node ← get
    let distance := node.distanceOf serial
    Program.report (pingEvent (node.tracker serial) distance outcome)
    if distance.isUnreachable then
      if (node.tracker serial).ended then finish tracker [outcome]
      else do
        match ← (pingOnce serial).run with
        | .ok roundTrip => pure (true, [outcome, .ok roundTrip])
        | .error failure => finish tracker [outcome, .error failure]
    else if outcome.isOk && distance.isUnknown then pure (true, [outcome])
    else do
      let delay ← jittered node.settings.neighborPause
      let _ ← Program.pause delay [.pingNow serial, .trackerEnd serial]
      pure (true, [outcome])
where
  /-- The end of a tracker. -/
  finish (tracker : Tracker) (pings : List Outcome) : Program Node (Bool × List Outcome) := do
    let continues ← trackerTurn.stop tracker
    pure (continues, pings)

theorem trackerTurn_eq (serial : Nat) : trackerTurn serial = Prod.fst <$> pingedTurn serial := by
  have finished (tracker : Tracker) (pings : List Outcome) :
      Prod.fst <$> pingedTurn.finish tracker pings = trackerTurn.stop tracker := rfl
  -- both turns branch alike, so each of their splits and binds is matched with the other's
  rw [trackerTurn, pingedTurn, map_bind]
  congr 1
  funext node
  dsimp only
  split
  · rw [finished]
  · rw [map_bind]
    congr 1
    funext outcome
    simp only [map_bind]
    congr 1
    funext node
    congr 1
    funext _
    split
    · split
      · rw [finished]
      · rw [map_bind]
        congr 1
        funext confirmation
        cases confirmation with
        | ok roundTrip => rfl
        | error failure => rw [finished]
    · split
      · rfl
      · simp only [map_bind]
        rfl

/-- How a task goes on after a turn. -/
def onward (serial : Nat) (goes : Bool) : Option Job :=
  if goes then some (.tracker serial) else none

theorem turn_tracker_eq (serial : Nat) :
    turn (.tracker serial) = (fun told => onward serial told.1) <$> pingedTurn serial := by
  rw [turn, trackerTurn_eq, bind_map_left, map_eq_pure_bind]
  rfl

/-- The node goes on, and so does its tracker, unless it is given up. -/
structure Lasts (serial : Nat) (now after : Node) : Prop where
  settings : after.settings = now.settings
  length : now.trackers.length ≤ after.trackers.length
  ended : (now.tracker serial).ended → (after.tracker serial).ended

/-- The node does other work, by which the peer of a tracker is not pinged. -/
structure Spares (serial : Nat) (now after : Node) : Prop extends Lasts serial now after where
  failures : (after.tracker serial).failures = (now.tracker serial).failures

section Lasts

variable {serial : Nat} {first second third now after : Node}

theorem Lasts.trans (before : Lasts serial first second) (after : Lasts serial second third) :
    Lasts serial first third where
  settings := after.settings.trans before.settings
  length := Nat.le_trans before.length after.length
  ended ended := after.ended (before.ended ended)

theorem Lasts.alive (lasts : Lasts serial now after)
    (alive : (after.tracker serial).ended = false) : (now.tracker serial).ended = false := by
  refine Bool.eq_false_of_not_eq_true fun ended => ?_
  exact absurd ((lasts.ended ended).symm.trans alive) Bool.noConfusion

theorem Spares.refl (serial : Nat) (now : Node) : Spares serial now now :=
  ⟨⟨rfl, Nat.le_refl _, id⟩, rfl⟩

theorem Spares.trans (before : Spares serial first second) (after : Spares serial second third) :
    Spares serial first third :=
  ⟨before.toLasts.trans after.toLasts, after.failures.trans before.failures⟩

theorem lasts_withTracker (there : serial < now.trackers.length) {change : Tracker → Tracker}
    (lasts : (now.tracker serial).ended → (change (now.tracker serial)).ended) :
    Lasts serial now (now.withTracker serial change) where
  settings := rfl
  length := Nat.le_of_eq (List.length_modify _ _ _).symm
  ended ended := (tracker_withTracker there change).symm ▸ lasts ended

end Lasts

/-- A node whose other work goes on beside the task of a tracker. The neighbor may be given up and
asked for at any moment, but the task alone pings the peer. -/
def alone (serial : Nat) : Surroundings Node Node where
  look := id
  leave _ node := node
  Answers _ now _ after := Spares serial now after
  Accepts _ _ := True
  Admits _ _ := True

/-- The tracker counts the pings that failed in a row, as far as it can count. -/
structure Counted (serial : Nat) (pings : List Outcome) (node : Node) : Prop where
  there : serial < node.trackers.length
  failures : (node.tracker serial).failures.toNat = min (streak pings) (UInt32.size - 1)

section Counted

variable {serial : Nat} {pings : List Outcome} {now after : Node}

theorem Counted.spares (counted : Counted serial pings now) (spares : Spares serial now after) :
    Counted serial pings after :=
  ⟨Nat.lt_of_lt_of_le counted.there spares.length, spares.failures ▸ counted.failures⟩

theorem Counted.pinged (counted : Counted serial pings now) (outcome : Outcome) :
    Counted serial (pings ++ [outcome])
      (now.withTracker serial (·.change (.pinged outcome))) where
  there := Nat.lt_of_lt_of_eq counted.there (List.length_modify _ _ _).symm
  failures := by
    rw [tracker_withTracker counted.there]
    cases outcome with
    | ok roundTrip =>
        rw [streak_succeeded, Nat.zero_min]
        rfl
    | error failure =>
        rw [streak_failed]
        refine (Tracker.toNat_failures_failed _).trans ?_
        rw [counted.failures]
        omega

/-- The peer is lost when the neighbor was given up, and when more pings failed in a row than are
allowed. -/
theorem Counted.unreachable_iff (counted : Counted serial pings now) :
    now.distanceOf serial = .unreachable ↔ (now.tracker serial).ended ∨
      now.settings.maxPingFailures.toNat < min (streak pings) (UInt32.size - 1) := by
  rw [distanceOf, Tracker.distance, ← counted.failures, ← UInt32.lt_iff_toNat_lt]
  by_cases lost : (now.tracker serial).ended ∨
      now.settings.maxPingFailures < (now.tracker serial).failures
  · simp [lost]
  · have measured (window : SampleWindow) (mode : DistanceMode) :
        window.distance mode ≠ .unreachable := by
      rw [SampleWindow.distance.eq_def]
      split
      · exact Distance.noConfusion
      · exact Distance.noConfusion
    simp [lost, measured]

end Counted

section Turn

variable {serial : Nat} {pings : List Outcome} {now : Node}

@[simp] theorem look_alone : (alone serial).look now = now := rfl

theorem alone_steady : (alone serial).Steady (Spares serial) where
  refl := Spares.refl serial
  trans _ _ _ := Spares.trans
  admits _ _ := trivial
  answers _ _ _ _ answer := answer

theorem keeps_pingOnce (counted : Counted serial pings now)
    {post : Except Failure Binary64 → Node → Prop}
    (holds : ∀ outcome after, Lasts serial now after → Counted serial (pings ++ [outcome]) after →
      post outcome after) :
    (alone serial).Keeps (pingOnce serial).run post now := by
  refine Node.keeps_pingOnce alone_steady (fun middle record spares _ => ⟨trivial, ?_⟩)
    fun outcome middle spares => ⟨trivial, ?_⟩
  · have there := (counted.spares spares).there
    refine spares.trans ⟨lasts_withTracker there id, ?_⟩
    change ((middle.withTracker serial (·.refreshed record)).tracker serial).failures = _
    rw [tracker_withTracker there]
    rfl
  · have before := counted.spares spares
    refine holds _ _ (spares.toLasts.trans (lasts_withTracker before.there ?_))
      (before.pinged outcome)
    cases outcome with
    | ok roundTrip => exact id
    | error failure => exact id

/-- What holds of a task after some pings, whether it goes on or has exited. -/
structure Settled (serial : Nat) (pings : List Outcome) (goes : Bool) (node : Node) : Prop
    extends Counted serial pings node where
  lost : goes = false → node.distanceOf serial = .unreachable
  /-- A peer that is not given up is pinged until one more failure has confirmed that it is lost. -/
  patient : node.settings.maxPingFailures.toNat < UInt32.size - 1 →
    (node.tracker serial).ended = false →
      if goes then streak pings ≤ node.settings.maxPingFailures.toNat
      else streak pings = node.settings.maxPingFailures.toNat + 2

theorem Settled.spares {goes : Bool} {after : Node} (settled : Settled serial pings goes now)
    (spares : Spares serial now after) : Settled serial pings goes after where
  toCounted := settled.toCounted.spares spares
  lost exited := by
    have before := settled.toCounted.unreachable_iff.mp (settled.lost exited)
    rw [(settled.toCounted.spares spares).unreachable_iff, spares.settings]
    exact before.imp_left spares.ended
  patient countable alive := by
    rw [spares.settings] at countable ⊢
    exact settled.patient countable (spares.alive alive)

theorem Counted.givenUp (counted : Counted serial pings now) (ended : (now.tracker serial).ended) :
    Settled serial pings false now where
  toCounted := counted
  lost _ := distanceOf_of_ended ended
  patient _ alive := absurd (ended.symm.trans alive) Bool.noConfusion

/-- As long as the peer is not lost, few enough pings have failed. -/
theorem Counted.hopeful (counted : Counted serial pings now)
    (there : now.distanceOf serial ≠ .unreachable) : Settled serial pings true now where
  toCounted := counted
  lost := nofun
  patient countable _ := by
    rw [Ne, counted.unreachable_iff, not_or] at there
    rw [if_pos rfl]
    omega

theorem Counted.recovered {roundTrip : Binary64}
    (counted : Counted serial (pings ++ [.ok roundTrip]) now) :
    Settled serial (pings ++ [.ok roundTrip]) true now where
  toCounted := counted
  lost := nofun
  patient _ _ := by
    rw [if_pos rfl, streak_succeeded]
    exact Nat.zero_le _

/-- The failure that confirms the loss is the second one beyond those that are allowed. -/
theorem Settled.confirmed {outcome : Outcome} {failure : Failure} {middle after : Node}
    (settled : Settled serial pings true now) (before : Lasts serial now middle)
    (beyond : middle.settings.maxPingFailures.toNat <
      min (streak (pings ++ [outcome])) (UInt32.size - 1))
    (further : Lasts serial middle after)
    (counted : Counted serial (pings ++ [outcome] ++ [.error failure]) after) :
    Settled serial (pings ++ [outcome] ++ [.error failure]) false after where
  toCounted := counted
  lost _ := by
    rw [counted.unreachable_iff, further.settings, streak_failed]
    exact Or.inr (by omega)
  patient countable alive := by
    have settings := further.settings.trans before.settings
    have few := settled.patient (settings ▸ countable) ((before.trans further).alive alive)
    rw [if_pos rfl, ← before.settings] at few
    have one : streak (pings ++ [outcome]) ≤ streak pings + 1 := by
      cases outcome with
      | ok roundTrip => simp
      | error failure => simp
    rw [if_neg Bool.false_ne_true, streak_failed, further.settings]
    omega

theorem keeps_finish {outcomes : List Outcome} {tracker : Tracker}
    {post : Bool × List Outcome → Node → Prop} (settled : Settled serial pings false now)
    (holds : ∀ after, Spares serial now after → Settled serial pings false after →
      post (false, outcomes) after) :
    (alone serial).Keeps (pingedTurn.finish tracker outcomes) post now := by
  rw [pingedTurn.finish, trackerTurn.stop]
  simp only [keeps_bind]
  exact alone_steady.keeps (isReadOnly_request _) fun _ after spares =>
    holds after spares (settled.spares spares)

theorem keeps_jittered {span : Duration} {post : Duration → Node → Prop}
    (holds : ∀ delay after, Spares serial now after → post delay after) :
    (alone serial).Keeps (jittered span) post now :=
  ⟨trivial, holds _ _ ⟨⟨rfl, Nat.le_refl _, id⟩, rfl⟩⟩

/-- What one turn adds to the pings of a task. A turn without a ping is the last one of a neighbor
that was given up. -/
theorem keeps_pingedTurn (settled : Settled serial pings true now) :
    (alone serial).Keeps (pingedTurn serial) (fun told after =>
      Lasts serial now after ∧ Settled serial (pings ++ told.2) told.1 after ∧
        (told.2 = [] → (after.tracker serial).ended)) now := by
  have busy {outcome : Outcome} {further : List Outcome} {after : Node} :
      outcome :: further = [] → (after.tracker serial).ended :=
    fun idle => absurd idle (List.cons_ne_nil _ _)
  simp only [pingedTurn, keeps_bind, keeps_get, look_alone]
  refine keeps_ite (fun ended => ?_) fun _ => ?_
  · refine keeps_finish (settled.toCounted.givenUp ended) fun after spares finished => ?_
    rw [List.append_nil]
    exact ⟨spares.toLasts, finished, fun _ => spares.ended ended⟩
  rw [keeps_bind]
  refine keeps_pingOnce settled.toCounted fun outcome pinged lasts counted => ?_
  simp only [keeps_bind, keeps_get, look_alone]
  refine alone_steady.keeps (isReadOnly_request _) fun _ reported spares => ?_
  have before := lasts.trans spares.toLasts
  refine keeps_ite (fun lost => ?_) fun there => ?_
  · refine keeps_ite (fun ended => ?_) fun alive => ?_
    · refine keeps_finish ((counted.givenUp ended).spares spares) fun after idle finished => ?_
      exact ⟨before.trans idle.toLasts, finished, busy⟩
    · have unreachable := Distance.isUnreachable_iff.mp lost
      have beyond := (counted.unreachable_iff.mp unreachable).resolve_left alive
      rw [keeps_bind]
      refine keeps_pingOnce (counted.spares spares) fun confirmation after further recounted => ?_
      cases confirmation with
      | ok roundTrip =>
          have recovered := recounted.recovered
          rw [List.append_assoc] at recovered
          exact ⟨before.trans further, recovered, busy⟩
      | error failure =>
          have exited := settled.confirmed lasts beyond (spares.toLasts.trans further) recounted
          refine keeps_finish exited fun after idle finished => ?_
          rw [List.append_assoc] at finished
          exact ⟨before.trans (further.trans idle.toLasts), finished, busy⟩
  · have goes : Settled serial (pings ++ [outcome]) true reported := by
      exact (counted.hopeful fun unreachable =>
          there (Distance.isUnreachable_iff.mpr unreachable)).spares spares
    refine keeps_ite (fun _ => ⟨before, goes, busy⟩) fun _ => ?_
    simp only [keeps_bind]
    refine keeps_jittered fun delay drawn idle => ?_
    refine alone_steady.keeps (isReadOnly_request _) fun _ after waited => ?_
    have further := idle.trans waited
    exact ⟨before.trans further.toLasts, goes.spares further, busy⟩

end Turn

/-- A task of a tracker: what its pings so far have come to, and whether it goes on. -/
inductive Task (serial : Nat) : List Outcome → Bool → Node → Prop
  | start (node : Node) (record : PeerRecord)
      (new : node.trackers[serial]? = some (Tracker.start record node.settings)) :
      Task serial [] true node
  | turn {pings further : List Outcome} {goes : Bool} {now after : Node}
      (task : Task serial pings true now)
      (run : (alone serial).Runs (pingedTurn serial) now (goes, further) after) :
      Task serial (pings ++ further) goes after
  | wait {pings : List Outcome} {goes : Bool} {now after : Node} (task : Task serial pings goes now)
      (spares : Spares serial now after) : Task serial pings goes after

theorem Task.settled {serial : Nat} {pings : List Outcome} {goes : Bool} {node : Node}
    (task : Task serial pings goes node) : Settled serial pings goes node := by
  induction task with
  | start node record new =>
      obtain ⟨there, same⟩ := List.getElem?_eq_some_iff.mp new
      have tracker : node.tracker serial = Tracker.start record node.settings := by
        rw [Node.tracker, new]
        rfl
      refine ⟨⟨there, ?_⟩, Bool.noConfusion, fun _ _ => Nat.zero_le _⟩
      rw [tracker]
      rfl
  | turn _ run ih => exact ((keeps_pingedTurn ih).ends run).2.1
  | wait _ spares ih => exact ih.spares spares

/-- A task exits, however its turns go and whatever is done between them, as long as the peer keeps
silent and is not given up. -/
inductive Exits (serial : Nat) : Bool → Node → Prop
  | exited (node : Node) : Exits serial false node
  | turn (now : Node)
      (next : ∀ goes (failing : List Failure) after later,
        (alone serial).Runs (pingedTurn serial) now (goes, failing.map .error) after →
        Spares serial after later → (later.tracker serial).ended = false →
        Exits serial goes later) :
      Exits serial true now

/-- Each turn with a silent peer adds a failure, and a task does not go on with more of them than are
allowed. -/
theorem Task.exits {serial : Nat} {pings : List Outcome} {goes : Bool} {node : Node}
    (task : Task serial pings goes node)
    (countable : node.settings.maxPingFailures.toNat < UInt32.size - 1) :
    Exits serial goes node := by
  generalize left : node.settings.maxPingFailures.toNat - streak pings = patience
  induction patience using Nat.strong_induction_on generalizing pings goes node with
  | h patience ih =>
      cases goes with
      | false => exact .exited node
      | true =>
          refine .turn node fun continues failing after later run spares alive => ?_
          obtain ⟨lasts, _, idle⟩ := (keeps_pingedTurn task.settled).ends run
          have settings := spares.settings.trans lasts.settings
          have further := (task.turn run).wait spares
          rw [← settings] at countable left
          cases continues with
          | false => exact .exited later
          | true =>
              have few := further.settled.patient countable alive
              rw [if_pos rfl, streak_silent] at few
              have pinged : failing ≠ [] := by
                rintro rfl
                exact absurd ((idle rfl).symm.trans (spares.alive alive)) Bool.noConfusion
              have one := List.length_pos_iff.mpr pinged
              refine ih _ ?_ further countable rfl
              rw [streak_silent]
              omega

/-- A task that has exited leaves its peer out of reach for good. With a peer that keeps silent and
is not given up, it does exit, with the second failed ping beyond those that are allowed, not earlier
and not later. As long as it goes on it always has another turn, which pings the peer unless the
neighbor was given up. -/
theorem task_exits {serial : Nat} {pings : List Outcome} {goes : Bool} {node : Node}
    (task : Task serial pings goes node) :
    (goes = false → ∀ later, Spares serial node later → later.distanceOf serial = .unreachable) ∧
    (node.settings.maxPingFailures.toNat < UInt32.size - 1 → Exits serial goes node ∧
      ((node.tracker serial).ended = false → ∀ past (failing : List Failure),
        pings = past ++ failing.map .error → streak past = 0 →
        if goes then failing.length ≤ node.settings.maxPingFailures.toNat
        else failing.length = node.settings.maxPingFailures.toNat + 2)) ∧
    (goes = true → (∃ job after, (alone serial).Runs (turn (.tracker serial)) node job after) ∧
      ∀ job after, (alone serial).Runs (turn (.tracker serial)) node job after →
        ∃ further continues, job = onward serial continues ∧
          Task serial (pings ++ further) continues after ∧
          (further = [] → (after.tracker serial).ended)) := by
  have settled := task.settled
  refine ⟨fun exited later spares => (settled.spares spares).lost exited, fun countable => ?_, ?_⟩
  · refine ⟨task.exits countable, ?_⟩
    rintro alive past failing rfl fresh
    have patient := settled.patient countable alive
    rwa [streak_silent, fresh, Nat.zero_add] at patient
  · rintro rfl
    refine ⟨exists_runs (fun request now => ?_) _, fun job after run => ?_⟩
    · exact ⟨answering .expired (fun _ => .ended) request, now, .refl serial now⟩
    · rw [turn_tracker_eq] at run
      obtain ⟨⟨continues, further⟩, pinged, rfl⟩ := run.of_map
      obtain ⟨_, _, idle⟩ := (keeps_pingedTurn settled).ends pinged
      exact ⟨further, continues, rfl, task.turn pinged, idle⟩

section Silence

/-- A turn with a peer that cannot be reached. -/
def silentTurn (now : Node) : (Bool × List Outcome) × Node :=
  (alone 0).play Tracking.silent (pingedTurn 0) now

theorem task_silentTurn {pings : List Outcome} {now : Node} (task : Task 0 pings true now) :
    Task 0 (pings ++ (silentTurn now).1.2) (silentTurn now).1.1 (silentTurn now).2 :=
  task.turn (runs_play (fun _ now => Spares.refl 0 now) _ now)

/-- One ping has failed, which is allowed. -/
def failing : Node := (silentTurn Tracking.watching.node).2

/-- Another one has failed, and so has the one that confirms it. -/
def exited : Node := (silentTurn failing).2

theorem task_failing : Task 0 [.error (.timeout .infoRequest)] true failing := by
  have told : (silentTurn Tracking.watching.node).1 =
      (true, [.error (.timeout .infoRequest)]) := by decide +kernel
  have task := task_silentTurn (.start Tracking.watching.node Tracking.neighbor rfl)
  rwa [told] at task

theorem task_exited : Task 0 (List.replicate 3 (.error (.timeout .infoRequest))) false exited := by
  have told : (silentTurn failing).1 =
      (false, List.replicate 2 (.error (.timeout .infoRequest))) := by decide +kernel
  have task := task_silentTurn task_failing
  rwa [told] at task

theorem task_exits_silent :
    (Exits 0 true failing ∧ ∃ job after, (alone 0).Runs (turn (.tracker 0)) failing job after) ∧
    (∀ later, Spares 0 exited later → later.distanceOf 0 = .unreachable) ∧
    3 = exited.settings.maxPingFailures.toNat + 2 := by
  obtain ⟨_, patient, goes⟩ := task_exits task_failing
  obtain ⟨lost, silent, _⟩ := task_exits task_exited
  have exits := (patient (by decide +kernel)).1
  have alive : (exited.tracker 0).ended = false := by decide +kernel
  exact ⟨⟨exits, (goes rfl).1⟩, lost rfl, (silent (by decide +kernel)).2 alive []
    (List.replicate 3 (.timeout .infoRequest)) rfl rfl⟩

end Silence

end Overlay.Node.Pinging
