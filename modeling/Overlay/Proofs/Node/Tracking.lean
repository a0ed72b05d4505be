import Overlay.Proofs.Node.Probe
import Overlay.Proofs.Node.State
import Overlay.Proofs.Program.Play

/-!
The life of a tracker at its node.

Pings of one peer may be under way at the same time, and the neighbor may be given up at any
moment, also while a ping waits for an answer. Whatever the order, the distance of the tracker is
the one that its history makes (`life_distance`).
-/

set_option autoImplicit false

namespace Overlay.Node.Tracking

open Attempt Program Surroundings
open Tracker (Change Shows streak isOver)

/-- A node, and what has happened to one of its trackers so far. -/
structure Watched where
  node : Node
  history : List Change

/-- The node goes on, and so may its tracker: it went through changes, and it may know its peer by
another record. -/
def Continues (serial : Nat) (now after : Watched) : Prop :=
  after.node.settings = now.node.settings ∧
    now.node.trackers.length ≤ after.node.trackers.length ∧
    ∃ changes record, after.history = now.history ++ changes ∧
      after.node.tracker serial =
        (changes.foldl Tracker.change (now.node.tracker serial)).refreshed record

/-- A node whose other work goes on while a ping waits for an answer. -/
def others (serial : Nat) : Surroundings Node Watched where
  look := Watched.node
  leave now node := { now with node }
  Answers _ now _ after := Continues serial now after
  Accepts _ _ := True
  Admits _ _ := True

variable {serial : Nat} {now : Watched}

theorem change_refreshed (tracker : Tracker) (record : PeerRecord) (change : Change) :
    (tracker.refreshed record).change change = (tracker.change change).refreshed record := by
  match change with
  | .pinged (.ok roundTrip) => rfl
  | .pinged (.error failure) => rfl
  | .retired => rfl

theorem foldl_change_refreshed (tracker : Tracker) (record : PeerRecord) (changes : List Change) :
    changes.foldl Tracker.change (tracker.refreshed record) =
      (changes.foldl Tracker.change tracker).refreshed record := by
  induction changes generalizing tracker with
  | nil => rfl
  | cons change rest ih => rw [List.foldl_cons, List.foldl_cons, change_refreshed, ih]

theorem Continues.refl (serial : Nat) (now : Watched) : Continues serial now now :=
  ⟨rfl, Nat.le_refl _, [], _, (List.append_nil _).symm, rfl⟩

theorem Continues.trans {first second third : Watched} (before : Continues serial first second)
    (after : Continues serial second third) : Continues serial first third := by
  obtain ⟨settings, length, changes, record, history, tracker⟩ := before
  obtain ⟨sameSettings, longer, further, latest, longerHistory, same⟩ := after
  refine ⟨sameSettings.trans settings, Nat.le_trans length longer, changes ++ further, latest,
    ?_, ?_⟩
  · rw [longerHistory, history, List.append_assoc]
  · rw [same, tracker, foldl_change_refreshed, List.foldl_append]
    rfl

theorem steady_others : (others serial).Steady (Continues serial) where
  refl := Continues.refl serial
  trans _ _ _ := Continues.trans
  admits _ _ := trivial
  answers _ _ _ _ answer := answer

/-- The tracker of a node that goes on changes, and its history with it. -/
theorem continues_change (there : serial < now.node.trackers.length) (change : Change) :
    Continues serial now ⟨now.node.withTracker serial (·.change change),
      now.history ++ [change]⟩ := by
  refine ⟨rfl, ?_, [change], _, rfl, tracker_withTracker there _⟩
  exact Nat.le_of_eq (List.length_modify _ _ _).symm

/-- What a peer tells about itself is no part of the history. -/
theorem continues_refreshed (there : serial < now.node.trackers.length) (record : PeerRecord) :
    Continues serial now { now with node := now.node.withTracker serial (·.refreshed record) } := by
  refine ⟨rfl, ?_, [], record, (List.append_nil _).symm, tracker_withTracker there _⟩
  exact Nat.le_of_eq (List.length_modify _ _ _).symm

/-- A ping that has come to its end is the latest change in the history of its tracker. -/
theorem keeps_pingOnce (there : serial < now.node.trackers.length) :
    (others serial).Keeps (pingOnce serial).run (fun outcome after =>
      Continues serial now { after with history := after.history ++ [.pinged outcome] }) now := by
  have still {middle : Watched} (reached : Continues serial now middle) :
      serial < middle.node.trackers.length := Nat.lt_of_lt_of_le there reached.2.1
  refine Node.keeps_pingOnce steady_others (fun middle record reached _ => ?_)
    fun outcome middle reached => ?_
  · exact ⟨trivial, reached.trans (continues_refreshed (still reached) record)⟩
  · exact ⟨trivial, reached.trans (continues_change (still reached) (.pinged outcome))⟩

/-- To be given up is a change that others may come after, but it does not matter which comes
first. -/
theorem foldl_change_retired (tracker : Tracker) (changes : List Change) :
    changes.foldl Tracker.change tracker.retired =
      (changes.foldl Tracker.change tracker).retired := by
  induction changes generalizing tracker with
  | nil => rfl
  | cons change rest ih =>
      have swap : tracker.retired.change change = (tracker.change change).retired := by
        match change with
        | .pinged (.ok roundTrip) => rfl
        | .pinged (.error failure) => rfl
        | .retired => rfl
      rw [List.foldl_cons, List.foldl_cons, swap, ih]

theorem keeps_endTracker (there : serial < now.node.trackers.length) :
    (others serial).Keeps (endTracker serial) (fun _ after =>
      Continues serial now { after with history := after.history ++ [.retired] }) now := by
  rw [endTracker, keeps_bind, keeps_modify]
  refine ⟨trivial, steady_others.keeps (isReadOnly_request _) fun _ after waited => ?_⟩
  obtain ⟨settings, length, changes, record, history, tracker⟩ := waited
  refine ⟨settings, ?_, changes ++ [.retired], record, ?_, ?_⟩
  · exact Nat.le_trans (Nat.le_of_eq (List.length_modify _ _ _).symm) length
  · rw [history, List.append_assoc]
    rfl
  · change after.node.tracker serial = _
    rw [tracker, List.foldl_append]
    change (changes.foldl Tracker.change
      ((now.node.withTracker serial Tracker.retired).tracker serial)).refreshed record = _
    rw [tracker_withTracker there, foldl_change_retired]
    rfl

/-- What can become of a tracker: it is pinged any number of times, it is given up, and the node
does other work. -/
inductive Life (serial : Nat) : Watched → Prop
  | start (node : Node) (record : PeerRecord)
      (new : node.trackers[serial]? = some (Tracker.start record node.settings)) :
      Life serial ⟨node, []⟩
  | ping {now after : Watched} {outcome : Except Failure Binary64} (life : Life serial now)
      (run : (others serial).Runs (pingOnce serial).run now outcome after) :
      Life serial { after with history := after.history ++ [.pinged outcome] }
  | giveUp {now after : Watched} (life : Life serial now)
      (run : (others serial).Runs (endTracker serial) now () after) :
      Life serial { after with history := after.history ++ [.retired] }
  | wait {now after : Watched} (life : Life serial now) (continues : Continues serial now after) :
      Life serial after

/-- The tracker is there, and it remembers what counts of its history. -/
def Kept (serial : Nat) (now : Watched) : Prop :=
  serial < now.node.trackers.length ∧
    Tracker.Reflects now.node.settings now.history (now.node.tracker serial)

theorem Kept.continues {after : Watched} (kept : Kept serial now)
    (continues : Continues serial now after) : Kept serial after := by
  obtain ⟨there, reflects⟩ := kept
  obtain ⟨settings, length, changes, record, history, tracker⟩ := continues
  refine ⟨Nat.lt_of_lt_of_le there length, ?_⟩
  rw [settings, history, tracker]
  exact (reflects.changes changes).refreshed record

theorem Life.kept (life : Life serial now) : Kept serial now := by
  induction life with
  | start node record new =>
      obtain ⟨there, same⟩ := List.getElem?_eq_some_iff.mp new
      refine ⟨there, ?_⟩
      have tracker : node.tracker serial = Tracker.start record node.settings := by
        rw [Node.tracker, new]
        rfl
      rw [tracker]
      exact Tracker.start_reflects record node.settings
  | ping _ run ih => exact ih.continues ((keeps_pingOnce ih.1).ends run)
  | giveUp _ run ih => exact ih.continues ((keeps_endTracker ih.1).ends run)
  | wait _ continues ih => exact ih.continues continues

/-- The distance of a tracker is the one that its whole history makes, as long as the failures in a
row can be counted. Once it was given up its peer is out of reach for good, and one ping that goes
well makes up for any number of failures before it. -/
theorem life_distance (life : Life serial now) :
    (streak now.history < UInt32.size →
      Shows now.node.settings now.history (now.node.distanceOf serial)) ∧
    (isOver now.history → now.node.distanceOf serial = .unreachable) ∧
    ∀ past (failing : List Failure) roundTrip,
      now.history = past ++ failing.map (fun failure => .pinged (.error failure)) ++
        [.pinged (.ok roundTrip)] →
      Shows now.node.settings (past ++ [.pinged (.ok roundTrip)])
        (now.node.distanceOf serial) := by
  have reflects := life.kept.2
  refine ⟨reflects.shows, reflects.unreachable, fun past failing roundTrip history => ?_⟩
  have countable : streak now.history < UInt32.size := by
    rw [history, Tracker.streak_succeeded]
    decide
  have shows := reflects.shows countable
  rw [history] at shows
  exact (Tracker.shows_recovered _ past failing roundTrip).mp shows

section Pings

/-- The peer that the examples track. -/
def neighbor : PeerRecord := .numbered 1

/-- A node with one new tracker, which forgets all but two samples and one failure. -/
def watching : Watched :=
  let settings := { Settings.brisk with pingTries := 1, sampleWindow := 2, maxPingFailures := 1 }
  let node := Node.start settings (.numbered 0) ⟨0⟩ .last .none none
  ⟨{ node with trackers := [Tracker.start neighbor settings] }, []⟩

/-- A peer that tells its record and then sends one byte back. -/
def responsive : (request : Request) → request.Reply :=
  let frame := (Wire.encodeFrame Wire.Layout.peerRecord neighbor 65536).toOption.getD []
  answering (.opened ⟨0⟩) fun count => .bytes
    (if count = 4 then frame.take 4 else if count = frame.length - 4 then frame.drop 4
      else List.replicate count 0)

/-- A peer that cannot be reached. -/
def silent : (request : Request) → request.Reply := answering .expired fun _ => .ended

/-- What is left after a ping. -/
def pinged (answer : (request : Request) → request.Reply) (now : Watched) : Watched :=
  let (outcome, after) := (others 0).play answer (pingOnce 0).run now
  { after with history := after.history ++ [.pinged outcome] }

theorem life_pinged (answer : (request : Request) → request.Reply) {now : Watched}
    (life : Life 0 now) : Life 0 (pinged answer now) :=
  life.ping (runs_play (fun _ now => Continues.refl 0 now) _ now)

theorem life_watching : Life 0 watching := .start _ neighbor rfl

/-- The peer has answered twice, and then could not be reached twice. -/
def lost : Watched :=
  pinged silent (pinged silent (pinged responsive (pinged responsive watching)))

/-- The peer has answered again. -/
def found : Watched := pinged responsive lost

example : [watching, lost, found].map (·.node.distanceOf 0) =
    [.unknown, .unreachable, .millis .zero] := by decide +kernel

theorem life_distance_found :
    Life 0 lost ∧ Shows lost.node.settings lost.history (lost.node.distanceOf 0) ∧
    Life 0 found ∧ Shows found.node.settings found.history (found.node.distanceOf 0) := by
  have before : Life 0 lost :=
    life_pinged silent (life_pinged silent (life_pinged responsive (life_pinged responsive
      life_watching)))
  have after : Life 0 found := life_pinged responsive before
  have countable : streak lost.history < UInt32.size ∧ streak found.history < UInt32.size := by
    decide +kernel
  exact ⟨before, (life_distance before).1 countable.1, after, (life_distance after).1 countable.2⟩

end Pings

end Overlay.Node.Tracking
