import Overlay.Proofs.Node.Maintenance
import Overlay.Proofs.Node.Probe
import Overlay.Proofs.Node.Tracking
import Overlay.Proofs.Program.Interleaving

/-!
Who is on the lists of neighbors.

Neighbors are held by the peer that their tracker was made for, and a tracker that finds another
peer at the address of its own goes on with that one. So the lists name every peer once, and the
node itself never, but for those whom such a change has brought in (`roster_named`).
-/

set_option autoImplicit false

namespace Overlay.Node

/-- What is done to neighbors, but for tracking a peer on request. -/
inductive Deed
  | pass
  | turn (serial : Nat)
  | ping (serial : Nat)
  | giveUp (serial : Nat)
  | giveUpAll

def Deed.program : Deed → Program Node PUnit
  | .pass => do
    let _ ← maintain
    pure ()
  | .turn serial => do
    let _ ← trackerTurn serial
    pure ()
  | .ping serial => do
    let _ ← (pingOnce serial).run
    pure ()
  | .giveUp serial => endTracker serial
  | .giveUpAll => dropAllNeighbors

namespace Roster

open Attempt Interleaving Program Surroundings
open Neighborhood (Report)

/-- A list names every peer once, and the node itself never. -/
def NamesOnce (own : PeerId) (records : List PeerRecord) : Prop :=
  (records.map (·.id)).Nodup ∧ own ∉ records.map (·.id)

/-- Other work, which leaves the neighbors to the passes and the trackers. What it makes of the view
of the network is admitted. -/
structure OtherWork (admitted : List PeerRecord → Prop) (now after : Node) : Prop where
  id : after.record.id = now.record.id
  members : after.members = now.members
  trackers : after.trackers = now.trackers
  view : admitted after.knownNodes

/-- What a node without neighbors may come to while it chooses them from admitted views. -/
def Reached (admitted : List PeerRecord → Prop) (own : PeerId) (shared : Shared Node) : Prop :=
  ∃ first : Node, first.record.id = own ∧ first.members = [] ∧ first.trackers = [] ∧
    admitted first.knownNodes ∧ Reachable Deed.program (OtherWork admitted) first shared

/-- Whether a tracker was reported to go on with a peer of that name. -/
def broughtIn (reported : List Event) (id : PeerId) : Bool :=
  reported.any fun
    | .neighborReplaced _ actual _ => actual == id
    | _ => false

theorem broughtIn_of_mem {reported : List Event} {expected actual : PeerId}
    {address : SocketAddress} (told : .neighborReplaced expected actual address ∈ reported) :
    broughtIn reported actual :=
  List.any_eq_true.mpr ⟨_, told, beq_self_eq_true actual⟩

theorem broughtIn_mono {reported later : List Event} {id : PeerId} (grown : reported ⊆ later)
    (before : broughtIn reported id) : broughtIn later id := by
  obtain ⟨event, told, brings⟩ := List.any_eq_true.mp before
  exact List.any_eq_true.mpr ⟨event, grown told, brings⟩

/-- A tracker is with the peer it was made for, or it was reported to have changed over. -/
def Followed (reported : List Event) (tracker : Tracker) : Prop :=
  tracker.record.id = tracker.id ∨ broughtIn reported tracker.record.id

/-- What holds of the neighbors at all times. -/
structure Listed (own : PeerId) (node : Node) (reported : List Event) : Prop
    extends Tracked node where
  id : node.record.id = own
  foreign : ∀ member ∈ node.members, member.id ≠ own
  named : ∀ member ∈ node.members, (node.tracker member.tracker).id = member.id
  followed : ∀ serial < node.trackers.length, Followed reported (node.tracker serial)

section Listed

variable {own : PeerId} {node after : Node} {reported later : List Event}

theorem listed_alone (id : node.record.id = own) (members : node.members = [])
    (trackers : node.trackers = []) : Listed own node reported := by
  refine ⟨⟨?_, ?_, ?_⟩, id, ?_, ?_, ?_⟩
  all_goals simp [members, trackers]

/-- The neighbors are all that counts of a node. -/
theorem Listed.congr (listed : Listed own node reported)
    (id : after.record.id = node.record.id) (members : after.members = node.members)
    (trackers : after.trackers = node.trackers) (grown : reported ⊆ later) :
    Listed own after later := by
  have tracker {serial : Nat} (there : serial < node.trackers.length) :
      after.tracker serial = node.tracker serial := by
    rw [Node.tracker, Node.tracker, trackers, List.getElem?_eq_getElem there]
    rfl
  refine ⟨⟨?_, ?_, ?_⟩, id.trans listed.id, ?_, ?_, ?_⟩
  all_goals simp only [members, trackers]
  · exact listed.distinct
  · exact listed.apart
  · exact listed.there
  · exact listed.foreign
  · intro member held
    rw [tracker (listed.there member held)]
    exact listed.named member held
  · intro serial there
    rw [tracker there]
    exact (listed.followed serial there).imp_right (broughtIn_mono grown)

/-- A tracker may change in any way that keeps its name and does not change over unreported. -/
theorem Listed.withTracker {serial : Nat} {change : Tracker → Tracker}
    (listed : Listed own node reported)
    (name : (change (node.tracker serial)).id = (node.tracker serial).id)
    (followed : Followed reported (node.tracker serial) →
      Followed reported (change (node.tracker serial))) :
    Listed own (node.withTracker serial change) reported := by
  have length : (node.withTracker serial change).trackers.length = node.trackers.length :=
    List.length_modify _ _ _
  refine ⟨⟨listed.distinct, listed.apart, ?_⟩, listed.id, listed.foreign, ?_, ?_⟩
  · rw [length]
    exact listed.there
  · intro member held
    have there := listed.there member held
    rw [← listed.named member held]
    by_cases same : member.tracker = serial
    · rw [same] at there ⊢
      rw [tracker_withTracker there, name]
    · rw [tracker_withTracker_of_ne same]
  · rw [length]
    intro other there
    by_cases same : other = serial
    · subst same
      rw [tracker_withTracker there]
      exact followed (listed.followed other there)
    · rw [tracker_withTracker_of_ne same]
      exact listed.followed other there

theorem Listed.sublist {members : List Member} (listed : Listed own node reported)
    (part : members.Sublist node.members) : Listed own { node with members } reported where
  distinct := listed.distinct.sublist (part.map _)
  apart := listed.apart.sublist (part.map _)
  there member held := listed.there member (part.subset held)
  id := listed.id
  foreign member held := listed.foreign member (part.subset held)
  named member held := listed.named member (part.subset held)
  followed := listed.followed

theorem tracker_withNeighbor_of_lt (record : PeerRecord) {serial : Nat}
    (there : serial < node.trackers.length) :
    (node.withNeighbor record).tracker serial = node.tracker serial := by
  rw [Node.tracker, Node.tracker, Node.withNeighbor, List.getElem?_append_left there,
    List.getElem?_eq_getElem there]

theorem tracker_withNeighbor_length (node : Node) (record : PeerRecord) :
    (node.withNeighbor record).tracker node.trackers.length =
      Tracker.start record node.settings := by
  rw [Node.tracker, Node.withNeighbor, List.getElem?_concat_length, Option.getD_some]

/-- A new tracker is with the peer it is made for. -/
theorem Listed.withNeighbor {record : PeerRecord} (listed : Listed own node reported)
    (foreign : record.id ≠ own) : Listed own (node.withNeighbor record) reported := by
  refine ⟨Maintenance.tracked_withNeighbor listed.toTracked record, listed.id, ?_, ?_, ?_⟩
  · intro member held
    rcases List.mem_append.mp held with old | new
    · exact listed.foreign member (List.mem_of_mem_filter old)
    · rw [List.mem_singleton.mp new]
      exact foreign
  · intro member held
    rcases List.mem_append.mp held with old | new
    · have before := List.mem_of_mem_filter old
      rw [tracker_withNeighbor_of_lt record (listed.there member before)]
      exact listed.named member before
    · rw [List.mem_singleton.mp new, tracker_withNeighbor_length]
      rfl
  · intro serial there
    rw [Node.withNeighbor, List.length_append, List.length_singleton] at there
    rcases Nat.lt_succ_iff_lt_or_eq.mp there with before | rfl
    · rw [tracker_withNeighbor_of_lt record before]
      exact listed.followed serial before
    · rw [tracker_withNeighbor_length]
      exact Or.inl rfl

end Listed

section Deeds

variable {own : PeerId} {now : Node × List Event} {serial : Nat}

/-- A node whose neighbors are listed as they should be, whatever else is done to them. -/
abbrev around (own : PeerId) : Surroundings Node (Node × List Event) := amid (Listed own)

theorem keeps_jittered {span : Duration} {post : Duration → Node × List Event → Prop}
    (listed : Listed own now.1 now.2)
    (ends : ∀ delay after, Listed own after.1 after.2 → post delay after) :
    (around own).Keeps (jittered span) post now := by
  have drawn (dice : Dice) : Listed own { now.1 with dice } now.2 :=
    listed.congr rfl rfl rfl (List.Subset.refl _)
  exact ⟨drawn _, ends _ _ (drawn _)⟩

theorem keeps_modify {change : Tracker → Tracker} {post : PUnit → Node × List Event → Prop}
    (listed : Listed own (now.1.withTracker serial change) now.2)
    (ends : ∀ after, Listed own after.1 after.2 → post ⟨⟩ after) :
    (around own).Keeps (modify (·.withTracker serial change)) post now :=
  ⟨listed, ends _ listed⟩

theorem keeps_pingOnce {post : Except Failure Binary64 → Node × List Event → Prop}
    (listed : Listed own now.1 now.2)
    (ends : ∀ outcome after, Listed own after.1 after.2 → post outcome after) :
    (around own).Keeps (pingOnce serial).run post now := by
  refine Node.keeps_pingOnce amid_steady (fun middle record follows announced => ?_)
    fun outcome middle follows => ?_
  · have refreshed : Listed own (middle.1.withTracker serial (·.refreshed record)) middle.2 := by
      refine (follows.1 listed).withTracker rfl fun followed => ?_
      rcases announced with same | ⟨_, _, _, _, told⟩
      · -- with the same peer as before, the tracker does not change over
        change record.id = (middle.1.tracker serial).id ∨ broughtIn middle.2 record.id
        rw [same]
        exact followed
      · exact Or.inr (broughtIn_of_mem (told List.mem_cons_self))
    exact ⟨refreshed, fun _ => refreshed, follows.2⟩
  · have counted : Listed own (middle.1.withTracker serial (·.change (.pinged outcome)))
        middle.2 := by
      refine (follows.1 listed).withTracker ?_ ?_
      all_goals cases outcome
      · rfl
      · rfl
      · exact id
      · exact id
    exact ⟨counted, ends _ _ counted⟩

theorem keeps_trackerTurn {post : Bool → Node × List Event → Prop}
    (listed : Listed own now.1 now.2)
    (ends : ∀ continues after, Listed own after.1 after.2 → post continues after) :
    (around own).Keeps (trackerTurn serial) post now := by
  have stopped {middle : Node × List Event} (listed : Listed own middle.1 middle.2)
      (tracker : Tracker) : (around own).Keeps (trackerTurn.stop tracker) post middle := by
    rw [trackerTurn.stop, keeps_bind]
    exact keeps_report fun after listed _ => ends false after listed
  simp only [trackerTurn, keeps_bind, keeps_get]
  refine keeps_ite (fun _ => stopped listed _) fun _ => ?_
  rw [keeps_bind]
  refine keeps_pingOnce listed fun outcome pinged listed => ?_
  simp only [keeps_bind, keeps_get]
  refine keeps_report fun reported listed _ => ?_
  refine keeps_ite (fun _ => ?_) fun _ => ?_
  · refine keeps_ite (fun _ => stopped listed _) fun _ => ?_
    rw [keeps_bind]
    refine keeps_pingOnce listed fun confirmation after listed => ?_
    cases confirmation with
    | ok roundTrip => exact ends true after listed
    | error failure => exact stopped listed _
  · refine keeps_ite (fun _ => ends true reported listed) fun _ => ?_
    simp only [keeps_bind]
    refine keeps_jittered listed fun delay drawn listed => ?_
    exact keeps_readOnly (isReadOnly_request _) listed fun _ after listed _ =>
      ends true after listed

theorem keeps_endTracker {post : Unit → Node × List Event → Prop} (listed : Listed own now.1 now.2)
    (ends : ∀ after, Listed own after.1 after.2 → post () after) :
    (around own).Keeps (endTracker serial) post now := by
  rw [endTracker, keeps_bind]
  refine keeps_modify (listed.withTracker rfl id) fun retired listed => ?_
  exact keeps_readOnly (isReadOnly_request _) listed fun _ after listed _ => ends after listed

theorem keeps_dropNeighbors {dropped : List PeerId} {post : Unit → Node × List Event → Prop}
    (listed : Listed own now.1 now.2)
    (ends : ∀ after, Listed own after.1 after.2 → post () after) :
    (around own).Keeps (dropNeighbors dropped) post now := by
  simp only [dropNeighbors, keeps_bind, keeps_get, keeps_set, List.partition_eq_filter_filter]
  have left : Listed own { now.1 with members := Maintenance.staying now.1 dropped } now.2 :=
    listed.sublist List.filter_sublist
  refine ⟨left, keeps_forM (fun after => Listed own after.1 after.2) left ?_ ends⟩
  exact fun _ _ _ listed => keeps_endTracker listed fun _ => id

theorem keeps_addNeighbor {record : PeerRecord} {post : Nat → Node × List Event → Prop}
    (listed : Listed own now.1 now.2) (foreign : record.id ≠ own)
    (ends : ∀ serial after, Listed own after.1 after.2 → post serial after) :
    (around own).Keeps (addNeighbor record) post now := by
  simp only [addNeighbor, keeps_bind, keeps_get, keeps_set]
  have joined : Listed own (now.1.withNeighbor record) now.2 := listed.withNeighbor foreign
  refine ⟨joined, keeps_readOnly (isReadOnly_request _) joined fun _ after listed _ => ?_⟩
  exact ends _ after listed

theorem keeps_maintain {post : Report → Node × List Event → Prop}
    (listed : Listed own now.1 now.2)
    (ends : ∀ report after, Listed own after.1 after.2 → post report after) :
    (around own).Keeps maintain post now := by
  simp only [maintain, keeps_bind, keeps_get]
  refine keeps_readOnly (isReadOnly_forM (fun _ => isReadOnly_request _) _) listed
    fun _ asked listed _ => ?_
  rw [keeps_bind]
  refine keeps_dropNeighbors listed fun left listed => ?_
  simp only [keeps_bind, keeps_get]
  have foreign (record : PeerRecord) (eligible : record ∈ left.1.eligible) : record.id ≠ own := by
    have chosen := (List.mem_filter.mp eligible).2
    rw [← listed.id]
    exact bne_iff_ne.mp (Bool.and_eq_true_iff.mp chosen).1
  refine keeps_forM (fun after => Listed own after.1 after.2) listed
    (fun record chosen middle listed => ?_) fun joined listed => ?_
  · have eligible := List.mem_mergeSort.mp (List.mem_of_mem_take chosen)
    rw [keeps_bind]
    exact keeps_addNeighbor listed (foreign record eligible) fun _ _ => id
  · exact keeps_report fun after listed _ => ends _ after listed

/-- Whatever is done to the neighbors, they are listed as they should be. -/
theorem keeps_deed (deed : Deed) (listed : Listed own now.1 now.2) :
    (around own).Keeps deed.program (fun _ _ => True) now := by
  cases deed with
  | pass =>
      rw [Deed.program, keeps_bind]
      exact keeps_maintain listed fun _ _ _ => trivial
  | turn serial =>
      rw [Deed.program, keeps_bind]
      exact keeps_trackerTurn listed fun _ _ _ => trivial
  | ping serial =>
      rw [Deed.program, keeps_bind]
      exact keeps_pingOnce listed fun _ _ _ => trivial
  | giveUp serial => exact keeps_endTracker listed fun _ _ => trivial
  | giveUpAll =>
      simp only [Deed.program, dropAllNeighbors, keeps_bind, keeps_get]
      exact keeps_dropNeighbors listed fun _ _ => trivial

end Deeds

section Names

variable {admitted : List PeerRecord → Prop} {own : PeerId} {shared : Shared Node}

theorem Reached.listed (reached : Reached admitted own shared) :
    Listed own shared.state shared.reported := by
  obtain ⟨first, id, members, trackers, _, reachable⟩ := reached
  refine reachable.holds (listed_alone id members trackers) ?_ ?_ ?_
  · exact fun deed _ _ listed => keeps_deed deed listed
  · exact fun _ _ _ listed works =>
      listed.congr works.id works.members works.trackers (List.Subset.refl _)
  · exact fun _ reported event listed =>
      listed.congr rfl rfl rfl (List.subset_cons_self event reported)

/-- The records on a list that no change of a tracker has brought in. -/
def lasting (reported : List Event) (records : List PeerRecord) : List PeerRecord :=
  records.filter fun record => !broughtIn reported record.id

theorem NamesOnce.perm {records others : List PeerRecord} (names : NamesOnce own records)
    (same : records.Perm others) : NamesOnce own others :=
  ⟨(same.map _).nodup_iff.mp names.1, fun named => names.2 ((same.map _).mem_iff.mpr named)⟩

/-- A list from near to far names the same peers. -/
theorem sortedNeighbors_perm (node : Node) :
    node.neighbors.Perm (node.sortedNeighbors.map Prod.fst) := by
  have sorted := (List.mergeSort_perm (node.neighborTrackers.map fun tracker =>
    (tracker.record, tracker.distance node.settings))
      fun left right => decide (left.2 ≤ right.2)).map Prod.fst
  rw [List.map_map] at sorted
  exact sorted.symm

theorem Listed.names_trackers {node : Node} {reported : List Event}
    (listed : Listed own node reported) :
    node.neighborTrackers.map (·.id) = node.members.map Member.id := by
  rw [neighborTrackers, List.map_map]
  exact List.map_congr_left listed.named

theorem Listed.namesOnce {node : Node} {reported : List Event}
    (listed : Listed own node reported) : NamesOnce own (lasting reported node.neighbors) := by
  have names : (lasting reported node.neighbors).map (·.id) =
      (node.members.filter fun member =>
        !broughtIn reported (node.tracker member.tracker).record.id).map Member.id := by
    rw [lasting, neighbors, neighborTrackers, List.map_map, List.filter_map, List.map_map]
    refine List.map_congr_left fun member kept => ?_
    obtain ⟨held, lasts⟩ := List.mem_filter.mp kept
    have followed := listed.followed _ (listed.there member held)
    refine (followed.resolve_right fun brought => ?_).trans (listed.named member held)
    simp [brought] at lasts
  rw [NamesOnce, names]
  refine ⟨listed.distinct.sublist (List.filter_sublist.map _), fun named => ?_⟩
  obtain ⟨member, kept, same⟩ := List.mem_map.mp named
  exact listed.foreign member (List.mem_of_mem_filter kept) same

theorem lasting_perm {reported : List Event} {records others : List PeerRecord}
    (same : records.Perm others) : (lasting reported records).Perm (lasting reported others) :=
  same.filter _

theorem lasting_of_unreported {reported : List Event} (unreported : ∀ id, ¬ broughtIn reported id)
    (records : List PeerRecord) : lasting reported records = records :=
  List.filter_eq_self.mpr fun record _ => by simpa using unreported record.id

/-- The lists of neighbors hold trackers that were made for different peers, all of them other
nodes. A tracker that is with another peer than that was reported to have changed over. So whoever
was not brought in by such a change is named once, and is not the node itself; and where no tracker
has changed over, this is so for the whole lists. -/
theorem roster_named (reached : Reached admitted own shared) :
    ((shared.state.neighborTrackers.map (·.id)).Nodup ∧
      own ∉ shared.state.neighborTrackers.map (·.id)) ∧
    (∀ tracker ∈ shared.state.neighborTrackers, tracker.record.id ≠ tracker.id →
      broughtIn shared.reported tracker.record.id) ∧
    (NamesOnce own (lasting shared.reported shared.state.neighbors) ∧
      NamesOnce own (lasting shared.reported (shared.state.sortedNeighbors.map Prod.fst))) ∧
    ((∀ id, ¬ broughtIn shared.reported id) → NamesOnce own shared.state.neighbors ∧
      NamesOnce own (shared.state.sortedNeighbors.map Prod.fst)) := by
  have listed := reached.listed
  have near := listed.namesOnce
  have sorted := near.perm (lasting_perm (sortedNeighbors_perm shared.state))
  refine ⟨?_, fun tracker member changed => ?_, ⟨near, sorted⟩, fun unreported => ?_⟩
  · rw [listed.names_trackers]
    refine ⟨listed.distinct, fun named => ?_⟩
    obtain ⟨member, held, same⟩ := List.mem_map.mp named
    exact listed.foreign member held same
  · obtain ⟨neighbor, held, rfl⟩ := List.mem_map.mp member
    exact (listed.followed _ (listed.there neighbor held)).resolve_left changed
  · rw [lasting_of_unreported unreported] at near sorted
    exact ⟨near, sorted⟩

end Names

section Restart

/-- A peer that has restarted under another name since. -/
def former : PeerRecord := { PeerRecord.numbered 2 with address := .ofNumber 1 }

/-- A node without neighbors that has heard of some peers. -/
def informed (view : List PeerRecord) : Node :=
  let settings := { Settings.brisk with pingTries := 1, candidateTarget := 2 }
  Node.start settings (.numbered 0) ⟨0⟩ .last .none (some view)

/-- A deed that nothing comes between, while the peer answers under its new name. -/
def done (deed : Deed) (shared : Shared Node) : Shared Node :=
  let now := outcome Tracking.responsive deed.program (shared.state, shared.reported)
  ⟨now.1, now.2, .done ⟨⟩ :: shared.running⟩

theorem Reached.done {admitted : List PeerRecord → Prop} {own : PeerId} {shared : Shared Node}
    (reached : Reached admitted own shared) (deed : Deed) :
    Reached admitted own (done deed shared) := by
  obtain ⟨first, id, members, trackers, view, reachable⟩ := reached
  exact ⟨first, id, members, trackers, view, reachable.runs Tracking.responsive deed⟩

/-- The node has put the peer on probation, and hears of its new name. -/
def hearing : Shared Node :=
  let shared := done .pass ⟨informed [former], [], []⟩
  { shared with state := { shared.state with membership := some [former, Tracking.neighbor] } }

/-- The node has put the peer on probation once more, and asked who is at the address that it has
under its former name. -/
def replaced : Shared Node := done (.ping 0) (done .pass hearing)

theorem reached_hearing : Reached (NamesOnce (.ofNat 0)) (.ofNat 0) hearing := by
  have view : NamesOnce (.ofNat 0) (informed [former]).knownNodes := by
    unfold NamesOnce
    decide
  have start : Reached (NamesOnce (.ofNat 0)) (.ofNat 0) ⟨informed [former], [], []⟩ :=
    ⟨_, rfl, rfl, rfl, view, .start⟩
  obtain ⟨first, id, members, trackers, begins, reachable⟩ := start.done .pass
  refine ⟨first, id, members, trackers, begins, reachable.step (.other _ ⟨rfl, rfl, rfl, ?_⟩)⟩
  unfold NamesOnce
  decide

theorem reached_replaced : Reached (NamesOnce (.ofNat 0)) (.ofNat 0) replaced :=
  (reached_hearing.done .pass).done (.ping 0)

theorem roster_named_replaced :
    NamesOnce (.ofNat 0) hearing.state.neighbors ∧
      (replaced.state.neighborTrackers.map (·.id)).Nodup ∧
      ∀ tracker ∈ replaced.state.neighborTrackers, tracker.record.id ≠ tracker.id →
        broughtIn replaced.reported tracker.record.id := by
  have quiet : hearing.reported.all fun
      | .neighborReplaced .. => false
      | _ => true := by decide +kernel
  have unreported (id : PeerId) : ¬ broughtIn hearing.reported id := by
    intro brought
    obtain ⟨event, told, brings⟩ := List.any_eq_true.mp brought
    have other := List.all_eq_true.mp quiet event told
    cases event with
    | neighborReplaced => cases other
    | _ => cases brings
  have early := roster_named reached_hearing
  have late := roster_named reached_replaced
  exact ⟨(early.2.2.2 unreported).1, late.1.1, late.2.1⟩

/-- Trackers go on with whoever they find, so a list may name a peer twice. -/
theorem neighbors_repeat : ¬ ∀ (own : PeerId) (shared : Shared Node),
    Reached (NamesOnce own) own shared → NamesOnce own shared.state.neighbors ∧
      NamesOnce own (shared.state.sortedNeighbors.map Prod.fst) := by
  intro always
  have names := (always _ replaced reached_replaced).1.1
  have twice : replaced.state.neighbors.map (·.id) = [.ofNat 1, .ofNat 1] := by decide +kernel
  rw [twice] at names
  exact absurd names (by decide)

end Restart

end Roster

end Overlay.Node
