import Overlay.Proofs.Peer
import Overlay.Proofs.Program.Play
import Overlay.Proofs.Program.ReadOnly
import Overlay.Proofs.Vivaldi.Samples

/-!
What a node tells about its place, next to what its estimator holds.

A coordinate is kept twice, by the estimator that moves it and in the record that the node
advertises. An accepted sample changes both at once and nothing else changes either, so that they
go in step however many pings are under way (`record_tracks`).
-/

set_option autoImplicit false

namespace Overlay.Node.Publication

open Attempt Program Surroundings
open Vivaldi (Observation Sample)

/-- The two places in which a node keeps its coordinate. -/
structure Estimate where
  position : Vivaldi.State Binary64
  record : PeerRecord

/-- Both places after one more accepted sample. -/
def Estimate.moved (estimate : Estimate) (observation : Observation Binary64) : Estimate :=
  let position := estimate.position.moved .standard observation.sample observation.spare
  ⟨position, estimate.record.publish position.coordinate⟩

/-- A node, and the samples that its estimator has accepted so far, oldest first. -/
structure Watched where
  node : Node
  accepted : List (Sample Binary64)

/-- What the node holds in the two places. -/
def Watched.estimate (now : Watched) : Estimate := ⟨now.node.position, now.node.record⟩

/-- The node goes on: its estimator accepts samples, in whatever directions it moves. -/
def Continues (now after : Watched) : Prop :=
  ∃ observations : List (Observation Binary64),
    (∀ observation ∈ observations, observation.sample.isAdmissible) ∧
      after.accepted = now.accepted ++ observations.map (·.sample) ∧
      after.estimate = observations.foldl Estimate.moved now.estimate

/-- A node that does other work while one of its pings waits. Other pings may come to an end
meanwhile; nobody but the estimator publishes a coordinate. -/
def estimating : Surroundings Node Watched where
  look := Watched.node
  leave now node := { now with node }
  Answers _ now _ after := Continues now after
  Accepts _ _ := True
  Admits _ _ := True

theorem look_estimating (now : Watched) : estimating.look now = now.node := rfl

section Estimates

variable (estimate : Estimate) (observations : List (Observation Binary64))

/-- The epoch counts the samples, up to the last epoch. -/
theorem epoch_foldl_moved :
    (observations.foldl Estimate.moved estimate).record.epoch.toNat =
      min (estimate.record.epoch.toNat + observations.length) (UInt64.size - 1) := by
  induction observations generalizing estimate with
  | nil =>
      have bound : estimate.record.epoch.toNat < UInt64.size := estimate.record.epoch.toNat_lt
      simp only [List.foldl_nil, List.length_nil]
      omega
  | cons observation rest ih =>
      have next : (estimate.moved observation).record.epoch.toNat =
          min (estimate.record.epoch.toNat + 1) (UInt64.size - 1) :=
        PeerRecord.toNat_epoch_publish _ _
      rw [List.foldl_cons, ih, next, List.length_cons]
      omega

/-- Once a sample was accepted, the record tells where the estimator is. -/
theorem coordinate_foldl_moved (some : observations ≠ []) :
    (observations.foldl Estimate.moved estimate).record.coordinate =
      (observations.foldl Estimate.moved estimate).position.coordinate := by
  obtain ⟨before, last, rfl⟩ := (List.eq_nil_or_concat observations).resolve_left some
  rw [List.concat_eq_append, List.foldl_append]
  rfl

end Estimates

variable {now : Watched}

theorem Continues.refl (now : Watched) : Continues now now :=
  ⟨[], by simp, by simp, rfl⟩

theorem Continues.trans {first second third : Watched} (before : Continues first second)
    (after : Continues second third) : Continues first third := by
  obtain ⟨observations, admissible, accepted, reached⟩ := before
  obtain ⟨further, sound, more, last⟩ := after
  refine ⟨observations ++ further, ?_, ?_, ?_⟩
  · intro observation member
    rcases List.mem_append.mp member with early | late
    · exact admissible observation early
    · exact sound observation late
  · rw [more, accepted, List.map_append, List.append_assoc]
  · rw [last, reached, List.foldl_append]

/-- Where no sample is taken in, the history stays. -/
theorem Continues.append_nil {after : Watched} (continues : Continues now after) :
    Continues now { after with accepted := after.accepted ++ [] } := by
  rw [List.append_nil]
  exact continues

/-- Where no sample was accepted, nothing has changed. -/
theorem Continues.unmoved {after : Watched} (continues : Continues now after)
    (quiet : after.accepted = now.accepted) : after.estimate = now.estimate := by
  obtain ⟨observations, admissible, accepted, reached⟩ := continues
  have none : observations = [] := by
    rw [accepted] at quiet
    simpa using quiet
  rw [reached, none]
  rfl

theorem steady_estimating : estimating.Steady Continues where
  refl := Continues.refl
  trans _ _ _ := Continues.trans
  admits _ _ := trivial
  answers _ _ _ _ answer := answer

theorem keeps_draw {α : Type} {chance : Chance α} {post : α → Watched → Prop}
    (holds : ∀ value dice, post value { now with node := { now.node with dice } }) :
    estimating.Keeps (Node.draw chance) post now :=
  ⟨trivial, holds _ _⟩

/-- An accepted sample moves the estimator and the record together; a refused one moves neither. -/
theorem keeps_observe (sample : Sample Binary64) :
    estimating.Keeps (observe sample).run (fun result after =>
      (result.isOk ↔ sample.isAdmissible) ∧
        Continues now { after with
          accepted := after.accepted ++ (result.toOption.map fun _ => sample).toList }) now := by
  simp only [observe, keeps_run_bind, keeps_run_perform]
  refine keeps_draw fun spare dice => ?_
  -- A direction is drawn for refused samples too, which touches neither place.
  have tossed : Continues now { now with node := { now.node with dice } } := Continues.refl now
  simp only [keeps_run_get, look_estimating]
  cases applied : now.node.position.apply .standard sample spare with
  | error rejection =>
      have refused : ¬ sample.isAdmissible := by
        intro admissible
        have accepts : now.node.position.apply .standard sample spare = .ok (_, _) :=
          Vivaldi.State.apply_eq_ok.mpr ⟨admissible, rfl, rfl⟩
        rw [applied] at accepts
        cases accepts
      exact ⟨iff_of_false Bool.false_ne_true refused, tossed.append_nil⟩
  | ok next =>
      obtain ⟨position, predicted⟩ := next
      obtain ⟨admissible, rfl, -⟩ := Vivaldi.State.apply_eq_ok.mp applied
      refine ⟨trivial, iff_of_true rfl admissible, [⟨sample, spare⟩], ?_, rfl, rfl⟩
      intro observation member
      rw [List.mem_singleton.mp member]
      exact admissible

/-- What can be asked of an estimator. -/
inductive Deed
  | ping (address : SocketAddress) (update : Bool)
  | observe (sample : Sample Binary64)

/-- Does what is asked. The answer is the sample that the estimator took in, if it took in one: only
a ping that is to move the coordinate feeds its sample in. -/
def Deed.program : Deed → Program Node (Option (Sample Binary64))
  | .ping address true => Except.toOption <$> (Node.ping address true).run
  | .ping address false => do
    let _ ← (Node.ping address false).run
    pure none
  | .observe sample => (fun result => result.toOption.map fun _ => sample) <$>
      (Node.observe sample).run

/-- Whatever is asked of the estimator: the two places moved just if a sample was taken in, and an
observed sample is taken in just if it is admissible. -/
theorem keeps_deed (deed : Deed) : estimating.Keeps deed.program (fun taken after =>
    (∀ sample, deed = .observe sample → (taken = some sample ↔ sample.isAdmissible)) ∧
      Continues now { after with accepted := after.accepted ++ taken.toList }) now := by
  cases deed with
  | observe sample =>
      rw [Deed.program, keeps_map]
      refine (keeps_observe sample).mono fun result after holds => ⟨?_, holds.2⟩
      intro observed same
      cases same
      cases result with
      | ok predicted => exact iff_of_true rfl (holds.1.mp rfl)
      | error failure =>
          refine iff_of_false (Option.some_ne_none _).symm fun admissible => ?_
          exact Bool.false_ne_true (holds.1.mpr admissible)
  | ping address update =>
      have pinged {holds : Sample Binary64 → Prop} :
          ∀ sample, Deed.ping address update = .observe sample → holds sample := by
        intro sample same
        cases same
      cases update with
      | false =>
          rw [Deed.program, keeps_bind]
          apply steady_estimating.keeps (readOnly_ping address)
          intro result after continues
          exact ⟨pinged, continues.append_nil⟩
      | true =>
          rw [Deed.program, keeps_map]
          simp only [ping, keeps_run_bind, keeps_run_perform]
          apply steady_estimating.keeps (readOnly_measure address)
          intro result measured before
          cases result with
          | error failure => exact ⟨pinged, before.append_nil⟩
          | ok sample =>
              apply steady_estimating.keeps (isReadOnly_request _)
              intro _ told further
              rw [if_pos trivial, keeps_run_bind]
              refine (keeps_observe sample).mono fun result after holds => ?_
              have whole := (before.trans further).trans holds.2
              cases result with
              | ok predicted => exact ⟨pinged, whole⟩
              | error failure => exact ⟨pinged, whole⟩

/-- What can become of a node that starts out as `first`: its estimator is asked for one thing after
the other, and the node does other work. -/
inductive Course (first : Node) : Watched → Prop
  | start : Course first ⟨first, []⟩
  | deed {now after : Watched} {deed : Deed} {taken : Option (Sample Binary64)}
      (course : Course first now) (run : estimating.Runs deed.program now taken after) :
      Course first { after with accepted := after.accepted ++ taken.toList }
  | wait {now after : Watched} (course : Course first now) (continues : Continues now after) :
      Course first after

theorem Course.continues {first : Node} (course : Course first now) :
    Continues ⟨first, []⟩ now := by
  induction course with
  | start => exact Continues.refl _
  | deed _ run ih => exact ih.trans ((keeps_deed _).ends run).2
  | wait _ continues ih => exact ih.trans continues

/-- A node tells the coordinate that its estimator has, bit for bit, from the first accepted sample
on, and its epoch counts the accepted samples up to the last epoch. Before the first one it tells
none. Just the admissible samples are accepted; what brings no sample in changes nothing. -/
theorem record_tracks {first : Node} (unknown : first.record.coordinate = none)
    (unmoved : first.position = .initial) (course : Course first now) :
    (now.accepted = [] → now.node.record.coordinate = none ∧
      now.node.record.epoch = first.record.epoch ∧ now.node.position = .initial) ∧
    (now.accepted ≠ [] →
      now.node.record.coordinate = some now.node.position.coordinate ∧
      now.node.record.epoch.toNat =
        min (first.record.epoch.toNat + now.accepted.length) (UInt64.size - 1)) ∧
    (∀ sample ∈ now.accepted, sample.isAdmissible) ∧
    ∀ (deed : Deed) taken after, estimating.Runs deed.program now taken after →
      (∀ sample, deed = .observe sample → (taken = some sample ↔ sample.isAdmissible)) ∧
      (taken = none → after.accepted = now.accepted →
        after.node.record = now.node.record ∧ after.node.position = now.node.position) := by
  obtain ⟨observations, admissible, accepted, reached⟩ := course.continues
  have position : now.node.position = _ := congrArg Estimate.position reached
  have record : now.node.record = _ := congrArg Estimate.record reached
  have count : now.accepted.length = observations.length := by
    rw [accepted]
    simp
  refine ⟨?_, ?_, ?_, ?_⟩
  · intro quiet
    have none : observations = [] := List.length_eq_zero_iff.mp (by rw [← count, quiet]; rfl)
    rw [record, position, none]
    exact ⟨unknown, rfl, unmoved⟩
  · intro moved
    have some : observations ≠ [] := by
      rintro rfl
      exact moved accepted
    rw [count, record, position]
    exact ⟨coordinate_foldl_moved _ _ some, epoch_foldl_moved _ _⟩
  · intro sample member
    rw [accepted] at member
    obtain ⟨observation, among, rfl⟩ := List.mem_map.mp member
    exact admissible observation among
  · intro deed taken after run
    obtain ⟨judged, continues⟩ := (keeps_deed deed).ends run
    refine ⟨judged, ?_⟩
    rintro rfl quiet
    have same := continues.unmoved ((List.append_nil _).trans quiet)
    exact ⟨congrArg Estimate.record same, congrArg Estimate.position same⟩

section Requests

/-- A node that has just started, and sends one byte with each ping. -/
def newcomer : Node :=
  Node.start { Settings.brisk with pingTries := 1 } (.numbered 0) ⟨0⟩ .last .none none

/-- What is left after one more request, to a node that answers each byte with a zero or to none. -/
def asked (now : Watched) (connecting : Connecting) (deed : Deed) : Watched :=
  let answer := answering connecting fun count => .bytes (List.replicate count 0)
  let (taken, after) := estimating.play answer deed.program now
  { after with accepted := after.accepted ++ taken.toList }

theorem course_asked {first : Node} (course : Course first now)
    (requests : List (Connecting × Deed)) :
    Course first
      (requests.foldl (fun now (connecting, deed) => asked now connecting deed) now) := by
  induction requests generalizing now with
  | nil => exact course
  | cons request rest ih =>
      exact ih (course.deed (runs_play (fun _ now => Continues.refl now) _ now))

/-- A sample is observed, one without a usable time is refused, nobody answers a ping, and of two
pings that go well the first is not to move the coordinate. -/
def requests : List (Connecting × Deed) :=
  [(.expired, .observe ⟨.origin, .one, .ofNat 40⟩),
    (.expired, .observe ⟨.origin, .one, .infinity⟩),
    (.expired, .ping (.ofNumber 1) true),
    (.opened ⟨0⟩, .ping (.ofNumber 1) false),
    (.opened ⟨0⟩, .ping (.ofNumber 1) true)]

/-- What is left after the requests. -/
def requested : Watched :=
  requests.foldl (fun now (connecting, deed) => asked now connecting deed) ⟨newcomer, []⟩

theorem record_tracks_requested :
    Course newcomer requested ∧ requested.accepted.length = 2 ∧
      requested.node.record.coordinate = some requested.node.position.coordinate ∧
      requested.node.record.epoch.toNat = 2 := by
  have course : Course newcomer requested := course_asked .start requests
  have count : requested.accepted.length = 2 := by decide +kernel
  have some : requested.accepted ≠ [] := by
    intro none
    rw [none] at count
    cases count
  obtain ⟨coordinate, epoch⟩ := (record_tracks rfl rfl course).2.1 some
  rw [count] at epoch
  exact ⟨course, count, coordinate, epoch⟩

end Requests

end Overlay.Node.Publication
