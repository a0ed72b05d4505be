import Overlay.Node.Neighbors
import Overlay.Proofs.Neighborhood
import Overlay.Proofs.Node.State
import Overlay.Proofs.Program.Play
import Overlay.Proofs.Program.ReadOnly

/-!
Maintenance passes over the neighbors of a node.

A pass reviews the neighbors by the distances that it reads at its beginning, gives up those that
the review drops, and puts others on probation in their place. Trackers go on pinging meanwhile, and
their owner may end any of them, which makes no difference to what the pass does
(`maintain_restores`).
-/

set_option autoImplicit false

namespace Overlay.Node

/-- No peer is tracked twice, and every neighbor has a tracker of its own. -/
structure Tracked (node : Node) : Prop where
  distinct : (node.members.map Member.id).Nodup
  apart : (node.members.map Member.tracker).Nodup
  there : ∀ member ∈ node.members, member.tracker < node.trackers.length

theorem tracked_start (settings : Settings) (record : PeerRecord) (clock : Timestamp) (dice : Dice)
    (bootstrap : Bootstrap) (membership : Option (List PeerRecord)) :
    (Node.start settings record clock dice bootstrap membership).Tracked :=
  ⟨List.nodup_nil, List.nodup_nil, nofun⟩

/-- The neighbors with their distances. -/
def ranked (node : Node) : List Neighborhood.Ranked :=
  node.members.map fun member => (member.id, node.distanceOf member.tracker)

theorem mem_ranked {node : Node} {id : PeerId} {distance : Distance} :
    (id, distance) ∈ node.ranked ↔
      ∃ member ∈ node.members, member.id = id ∧ node.distanceOf member.tracker = distance := by
  simp only [ranked, List.mem_map, Prod.mk.injEq]

theorem mem_ranked_of_mem {node : Node} {member : Member} (held : member ∈ node.members) :
    (member.id, node.distanceOf member.tracker) ∈ node.ranked := List.mem_map_of_mem held

theorem distanceOf_of_ended {node : Node} {serial : Nat} (ended : (node.tracker serial).ended) :
    node.distanceOf serial = .unreachable := by
  rw [distanceOf, Tracker.distance, ended, Bool.true_or, if_pos rfl]

theorem Tracked.distinct_ranked {node : Node} (tracked : node.Tracked) :
    (node.ranked.map Prod.fst).Nodup := by
  rw [ranked, List.map_map]
  exact tracked.distinct

theorem countP_ranked (node : Node) (holds : Distance → Bool) :
    node.ranked.countP (fun neighbor => holds neighbor.2) =
      node.members.countP fun member => holds (node.distanceOf member.tracker) := by
  rw [ranked, List.countP_map]
  rfl

/-- The node with one more neighbor, on probation. -/
def withNeighbor (node : Node) (record : PeerRecord) : Node :=
  { node with
    trackers := node.trackers ++ [Tracker.start record node.settings]
    members := node.members.filter (·.id != record.id) ++ [⟨record.id, node.trackers.length⟩] }

/-- A new tracker has not ended, and it leaves the others as they are. -/
theorem ended_withNeighbor (node : Node) (record : PeerRecord) (serial : Nat) :
    ((node.withNeighbor record).tracker serial).ended = (node.tracker serial).ended := by
  rw [tracker, tracker, withNeighbor]
  rcases Nat.lt_trichotomy serial node.trackers.length with before | rfl | behind
  · rw [List.getElem?_append_left before]
  · rw [List.getElem?_concat_length, List.getElem?_eq_none (Nat.le_refl _)]
    rfl
  · have beyond : (node.trackers ++ [Tracker.start record node.settings]).length ≤ serial := by
      rw [List.length_append]
      exact behind
    rw [List.getElem?_eq_none beyond, List.getElem?_eq_none (Nat.le_of_lt behind)]

namespace Maintenance

open Attempt Neighborhood Program Surroundings

/-- Only the trackers in `others` may have been ended, and none goes on that had ended before. -/
structure EndsOnly (others : Nat → Prop) (now after : Node) : Prop where
  ended : ∀ serial, (now.tracker serial).ended → (after.tracker serial).ended
  spared : ∀ serial, (after.tracker serial).ended → (now.tracker serial).ended ∨ others serial

/-- The neighbors stay, and of the trackers only those in `others` may have been ended. -/
structure Continues (others : Nat → Prop) (now after : Node) : Prop
    extends EndsOnly others now after where
  settings : after.settings = now.settings
  members : after.members = now.members
  length : after.trackers.length = now.trackers.length

section Continues

variable {others wider : Nat → Prop} {first second third : Node}

theorem EndsOnly.trans (before : EndsOnly others first second)
    (after : EndsOnly others second third) : EndsOnly others first third where
  ended serial ended := after.ended serial (before.ended serial ended)
  spared serial ended := (after.spared serial ended).elim (before.spared serial) Or.inr

theorem Continues.refl (others : Nat → Prop) (now : Node) : Continues others now now :=
  ⟨⟨fun _ => id, fun _ => Or.inl⟩, rfl, rfl, rfl⟩

theorem Continues.trans (before : Continues others first second)
    (after : Continues others second third) : Continues others first third where
  toEndsOnly := before.toEndsOnly.trans after.toEndsOnly
  settings := after.settings.trans before.settings
  members := after.members.trans before.members
  length := after.length.trans before.length

theorem Continues.mono (continues : Continues others first second)
    (implies : ∀ serial, others serial → wider serial) : Continues wider first second :=
  { continues with
    spared := fun serial ended => (continues.spared serial ended).imp_right (implies serial) }

/-- Which neighbors there are makes no difference to the trackers. -/
theorem Continues.withMembers (continues : Continues others first second)
    (members : List Member) :
    Continues others { first with members } { second with members } :=
  ⟨⟨continues.ended, continues.spared⟩, continues.settings, rfl, continues.length⟩

theorem Continues.tracked (continues : Continues others first second) (tracked : first.Tracked) :
    second.Tracked := by
  refine ⟨?_, ?_, ?_⟩
  all_goals rw [continues.members]
  · exact tracked.distinct
  · exact tracked.apart
  · rw [continues.length]
    exact tracked.there

end Continues

/-- A node whose other work goes on during a pass. The neighbors are left to the pass, but any of
the trackers in `others` may be ended by somebody else. -/
def meanwhile (others : Nat → Prop) : Surroundings Node Node where
  look := id
  leave _ node := node
  Answers _ now _ after := Continues others now after
  Accepts _ _ := True
  Admits _ _ := True

variable {others : Nat → Prop} {now : Node} {α : Type}

@[simp] theorem look_meanwhile : (meanwhile others).look now = now := rfl

theorem keeps_readOnly {program : Program Node α} (readOnly : program.IsReadOnly)
    {post : α → Node → Prop}
    (holds : ∀ value after, Continues others now after → post value after) :
    (meanwhile others).Keeps program post now :=
  readOnly.keeps (Continues.refl others) (fun _ _ _ => Continues.trans) (fun _ _ => trivial)
    (fun _ _ _ _ answer => answer) holds

/-- Nothing but the end of one tracker. -/
theorem continues_retired {serial : Nat} (there : serial < now.trackers.length) :
    Continues (· = serial) now (now.withTracker serial Tracker.retired) where
  settings := rfl
  members := rfl
  length := List.length_modify _ _ _
  ended other ended := by
    by_cases same : other = serial
    · rw [same, tracker_withTracker there]
      rfl
    · rwa [tracker_withTracker_of_ne same]
  spared other ended := by
    by_cases same : other = serial
    · exact Or.inr same
    · exact Or.inl (tracker_withTracker_of_ne same Tracker.retired ▸ ended)

theorem keeps_endTracker {serial : Nat} (there : serial < now.trackers.length)
    {post : Unit → Node → Prop}
    (holds : ∀ after, Continues (fun other => others other ∨ other = serial) now after →
      (after.tracker serial).ended → post () after) :
    (meanwhile others).Keeps (endTracker serial) post now := by
  rw [endTracker, keeps_bind, keeps_modify]
  refine ⟨trivial, keeps_readOnly (isReadOnly_request _) fun _ after waited => ?_⟩
  have retired : Continues (fun other => others other ∨ other = serial) now
      (now.withTracker serial Tracker.retired) := (continues_retired there).mono fun _ => Or.inr
  refine holds after (retired.trans (waited.mono fun _ => Or.inl)) (waited.ended serial ?_)
  change ((now.withTracker serial Tracker.retired).tracker serial).ended
  rw [tracker_withTracker there]
  rfl

/-- The trackers of neighbors. -/
def trackersOf (members : List Member) (serial : Nat) : Prop :=
  ∃ member ∈ members, member.tracker = serial

theorem keeps_endTrackers {gone : List Member}
    (there : ∀ member ∈ gone, member.tracker < now.trackers.length) {post : Unit → Node → Prop}
    (holds : ∀ after, Continues (fun serial => others serial ∨ trackersOf gone serial) now after →
      (∀ member ∈ gone, (after.tracker member.tracker).ended) → post () after) :
    (meanwhile others).Keeps (gone.forM fun member => endTracker member.tracker) post now := by
  induction gone generalizing now with
  | nil => exact holds now (.refl _ now) nofun
  | cons member gone ih =>
      obtain ⟨here, thereRest⟩ := List.forall_mem_cons.mp there
      change (meanwhile others).Keeps (endTracker member.tracker >>= fun _ => gone.forM _) _ now
      rw [keeps_bind]
      refine keeps_endTracker here fun middle first retired => ?_
      have one : Continues (fun serial => others serial ∨ trackersOf (member :: gone) serial)
          now middle := by
        refine first.mono fun serial => Or.imp_right ?_
        rintro rfl
        exact ⟨member, List.mem_cons_self, rfl⟩
      refine ih (fun other rest => ?_) fun after later ended => holds after ?_ ?_
      · rw [first.length]
        exact thereRest other rest
      · refine one.trans (later.mono fun serial => Or.imp_right ?_)
        rintro ⟨other, rest, same⟩
        exact ⟨other, List.mem_cons_of_mem member rest, same⟩
      · -- what has ended once stays so while the others are ended
        exact List.forall_mem_cons.mpr ⟨later.ended _ retired, ended⟩

/-- The neighbors that go and those that stay when some peers are dropped. -/
def leaving (node : Node) (dropped : List PeerId) : List Member :=
  node.members.filter fun member => dropped.contains member.id

def staying (node : Node) (dropped : List PeerId) : List Member :=
  node.members.filter fun member => !dropped.contains member.id

/-- A node has given up some of its neighbors and ended their trackers. -/
structure GaveUp (others : Nat → Prop) (dropped : List PeerId) (now after : Node) : Prop where
  continues : Continues (fun serial => others serial ∨ trackersOf (leaving now dropped) serial)
    { now with members := staying now dropped } after
  retired : ∀ member ∈ leaving now dropped, (after.tracker member.tracker).ended

theorem keeps_dropNeighbors {dropped : List PeerId} (tracked : now.Tracked)
    {post : Unit → Node → Prop} (holds : ∀ after, GaveUp others dropped now after → post () after) :
    (meanwhile others).Keeps (dropNeighbors dropped) post now := by
  simp only [dropNeighbors, keeps_bind, keeps_get, keeps_set, look_meanwhile,
    List.partition_eq_filter_filter]
  refine ⟨trivial, keeps_endTrackers (fun member gone => ?_) fun after continues retired => ?_⟩
  · exact tracked.there member (List.mem_of_mem_filter gone)
  · exact holds after ⟨continues, retired⟩

theorem GaveUp.of_continues {dropped : List PeerId} {asked after : Node}
    (gaveUp : GaveUp others dropped asked after) (asking : Continues others now asked) :
    GaveUp others dropped now after := by
  have going : leaving asked dropped = leaving now dropped := by
    rw [leaving, asking.members, leaving]
  have kept : staying asked dropped = staying now dropped := by
    rw [staying, asking.members, staying]
  obtain ⟨continues, retired⟩ := gaveUp
  rw [going, kept] at continues
  rw [going] at retired
  refine ⟨Continues.trans ?_ continues, retired⟩
  exact (asking.withMembers (staying now dropped)).mono fun _ => Or.inl

theorem GaveUp.tracked {dropped : List PeerId} {after : Node}
    (gaveUp : GaveUp others dropped now after) (tracked : now.Tracked) : after.Tracked := by
  refine gaveUp.continues.tracked ⟨?_, ?_, fun member kept => ?_⟩
  · exact tracked.distinct.sublist (List.filter_sublist.map _)
  · exact tracked.apart.sublist (List.filter_sublist.map _)
  · exact tracked.there member (List.mem_of_mem_filter kept)

/-- A node has put peers on probation. -/
structure Joined (others : Nat → Prop) (added : List PeerId) (now after : Node) : Prop
    extends EndsOnly others now after where
  settings : after.settings = now.settings
  mem_iff : ∀ id, id ∈ after.members.map Member.id ↔ id ∈ now.members.map Member.id ∨ id ∈ added
  kept : ∀ member ∈ now.members, member.id ∉ added → member ∈ after.members
  length : after.members.length ≤ now.members.length + added.length
  tracked : now.Tracked → after.Tracked

section Joined

variable {first second third : Node} {added further : List PeerId}

theorem Joined.of_continues (continues : Continues others first second) :
    Joined others [] first second where
  toEndsOnly := continues.toEndsOnly
  settings := continues.settings
  mem_iff id := by simp [continues.members]
  kept member before _ := continues.members.symm ▸ before
  length := Nat.le_of_eq (congrArg List.length continues.members)
  tracked := continues.tracked

theorem Joined.trans (before : Joined others added first second)
    (after : Joined others further second third) :
    Joined others (added ++ further) first third where
  toEndsOnly := before.toEndsOnly.trans after.toEndsOnly
  settings := after.settings.trans before.settings
  mem_iff id := by rw [after.mem_iff, before.mem_iff, List.mem_append, or_assoc]
  kept member held apart := by
    rw [List.mem_append, not_or] at apart
    exact after.kept member (before.kept member held apart.1) apart.2
  length := by
    have := before.length
    have := after.length
    rw [List.length_append]
    omega
  tracked tracked := after.tracked (before.tracked tracked)

/-- A value that no item has comes last. -/
theorem nodup_map_concat {β : Type} {value : Member → β} {members : List Member} {last : Member}
    (distinct : (members.map value).Nodup) (new : ∀ member ∈ members, value member ≠ value last) :
    ((members ++ [last]).map value).Nodup := by
  rw [List.map_append, List.map_singleton, ← List.concat_eq_append]
  refine distinct.concat fun also => ?_
  obtain ⟨member, held, same⟩ := List.mem_map.mp also
  exact new member held same

theorem tracked_withNeighbor {node : Node} (tracked : node.Tracked) (record : PeerRecord) :
    (node.withNeighbor record).Tracked := by
  have part : (node.members.filter (·.id != record.id)).Sublist node.members :=
    List.filter_sublist
  have before (member : Member) (held : member ∈ node.members.filter (·.id != record.id)) :
      member.tracker < node.trackers.length := tracked.there member (part.subset held)
  refine ⟨?_, ?_, fun member held => ?_⟩
  · refine nodup_map_concat (tracked.distinct.sublist (part.map _)) fun member held => ?_
    simpa using (List.mem_filter.mp held).2
  · refine nodup_map_concat (tracked.apart.sublist (part.map _)) fun member held => ?_
    exact Nat.ne_of_lt (before member held)
  · rw [withNeighbor, List.length_append]
    rcases List.mem_append.mp held with old | new
    · exact Nat.lt_succ_of_lt (before member old)
    · rw [List.mem_singleton.mp new]
      exact Nat.lt_succ_self _

theorem joined_withNeighbor (node : Node) (record : PeerRecord) :
    Joined others [record.id] node (node.withNeighbor record) where
  settings := rfl
  ended serial ended := (ended_withNeighbor node record serial).symm ▸ ended
  spared serial ended := Or.inl (ended_withNeighbor node record serial ▸ ended)
  mem_iff id := by
    by_cases same : id = record.id
    · simp [withNeighbor, same]
    · simp only [withNeighbor, List.map_append, List.map_singleton, List.mem_append,
        List.mem_singleton, same, or_false, List.mem_map, List.mem_filter, bne_iff_ne]
      constructor
      · rintro ⟨member, ⟨held, _⟩, named⟩
        exact ⟨member, held, named⟩
      · rintro ⟨member, held, rfl⟩
        exact ⟨member, ⟨held, same⟩, rfl⟩
  kept member held apart := by
    refine List.mem_append_left _ (List.mem_filter.mpr ⟨held, ?_⟩)
    simpa using apart
  length := by
    rw [withNeighbor, List.length_append]
    exact Nat.add_le_add_right (List.length_filter_le _ _) 1
  tracked tracked := tracked_withNeighbor tracked record

end Joined

theorem keeps_addNeighbor {record : PeerRecord} {post : Nat → Node → Prop}
    (holds : ∀ serial after, Joined others [record.id] now after → post serial after) :
    (meanwhile others).Keeps (addNeighbor record) post now := by
  simp only [addNeighbor, keeps_bind, keeps_get, keeps_set, look_meanwhile]
  refine ⟨trivial, keeps_readOnly (isReadOnly_request _) fun _ after launched => ?_⟩
  exact holds _ after ((joined_withNeighbor now record).trans (.of_continues launched))

theorem keeps_addNeighbors {added : List PeerRecord} {post : Unit → Node → Prop}
    (holds : ∀ after, Joined others (added.map (·.id)) now after → post () after) :
    (meanwhile others).Keeps (added.forM fun record => do
      let _ ← addNeighbor record
      pure ()) post now := by
  induction added generalizing now with
  | nil => exact holds now (.of_continues (.refl others now))
  | cons record added ih =>
      change (meanwhile others).Keeps ((do
        let _ ← addNeighbor record
        pure ()) >>= fun _ => added.forM _) post now
      simp only [keeps_bind]
      refine keeps_addNeighbor fun _ middle one => ih fun after rest => ?_
      exact holds after (one.trans rest)

/-- What a pass may decide about the neighbors of a node. -/
structure Rightful (node : Node) (review : Review) : Prop where
  /-- Neighbors out of reach are removed, and nobody else. -/
  removed : ∀ id, id ∈ review.removed ↔
    ∃ member ∈ node.members, member.id = id ∧ node.distanceOf member.tracker = .unreachable
  candidates : review.candidates =
    node.members.countP fun member => (node.distanceOf member.tracker).isUnknown
  /-- Neighbors on probation stay. -/
  probation : ∀ member ∈ node.members, node.distanceOf member.tracker = .unknown →
    member.id ∉ review.removed ∧ member.id ∉ review.evicted
  /-- Only measured neighbors are evicted, each of them once, as many as are beyond the limit. -/
  evicted : ∀ id ∈ review.evicted,
    ∃ member ∈ node.members, member.id = id ∧ (node.distanceOf member.tracker).isMeasured
  evicted_nodup : review.evicted.Nodup
  evicted_length : review.evicted.length =
    (node.members.countP fun member => (node.distanceOf member.tracker).isMeasured) -
      node.settings.maxClusterSize.toNat
  /-- No measured neighbor that stays is farther than one that is evicted. -/
  farthest : ∀ gone ∈ node.members, gone.id ∈ review.evicted →
    ∀ kept ∈ node.members, (node.distanceOf kept.tracker).isMeasured →
      kept.id ∉ review.evicted →
      node.distanceOf kept.tracker ≤ node.distanceOf gone.tracker

/-- What a pass decides. -/
def verdict (node : Node) : Review := review node.settings.maxClusterSize.toNat node.ranked

theorem verdict_rightful (tracked : now.Tracked) : Rightful now (verdict now) := by
  have distinct := tracked.distinct_ranked
  have measured {member : Member} (held : member ∈ now.members)
      (evicted : member.id ∈ (verdict now).evicted) :
      (now.distanceOf member.tracker).isMeasured :=
    isMeasured_of_evicted distinct (mem_ranked_of_mem held) evicted
  constructor
  case removed => exact fun id => mem_removed.trans mem_ranked
  case candidates =>
    rw [verdict, review_eq]
    exact countP_ranked now Distance.isUnknown
  case probation =>
    intro member held unknown
    refine ⟨fun removed => ?_, fun evicted => ?_⟩
    · have lost := distance_unique distinct (mem_ranked_of_mem held) (mem_removed.mp removed)
      exact Distance.noConfusion (unknown.symm.trans lost)
    · have known := measured held evicted
      rw [unknown] at known
      cases known
  case evicted =>
    intro id evicted
    obtain ⟨distance, taken⟩ := mem_evicted evicted
    obtain ⟨there, known⟩ := mem_measured.mp (List.mem_of_mem_take taken)
    obtain ⟨member, held, named, rfl⟩ := mem_ranked.mp there
    exact ⟨member, held, named, known⟩
  case evicted_nodup => exact evicted_nodup distinct
  case evicted_length =>
    rw [verdict, length_evicted]
    exact congrArg (· - _) (countP_ranked now Distance.isMeasured)
  case farthest =>
    intro gone leaves evicted kept stays known spared
    exact evicted_farthest distinct (mem_ranked_of_mem leaves) evicted (mem_ranked_of_mem stays)
      known spared

/-- The neighbors that a verdict spares are not too many. -/
theorem length_staying (tracked : now.Tracked) :
    (staying now (verdict now).dropped).length ≤
      now.settings.maxClusterSize.toNat + (verdict now).candidates := by
  refine Nat.le_trans (Nat.le_of_eq ?_) (length_kept tracked.distinct_ranked)
  rw [ranked, List.filter_map, List.length_map]
  rfl

/-- The decisions that a pass reports. -/
def decisions (report : Report) : Review := ⟨report.removed, report.evicted, report.candidates⟩

/-- What a pass has done to the neighbors of a node. -/
structure Passed (others : Nat → Prop) (before : Node) (report : Report) (after : Node) : Prop where
  rightful : Rightful before (decisions report)
  /-- The trackers of those that go have ended. -/
  retired : ∀ member ∈ before.members, member.id ∈ report.removed ∨ member.id ∈ report.evicted →
    (after.tracker member.tracker).ended
  /-- The pass ends no other trackers. -/
  spared : ∀ serial, (after.tracker serial).ended → (before.tracker serial).ended ∨ others serial ∨
    ∃ member ∈ before.members, member.tracker = serial ∧
      (member.id ∈ report.removed ∨ member.id ∈ report.evicted)
  added_length : report.added.length ≤
    before.settings.candidateTarget.toNat - report.candidates
  /-- Whoever is not given up keeps its tracker, which goes on unless somebody else ends it. -/
  kept : ∀ member ∈ before.members, member.id ∉ report.removed → member.id ∉ report.evicted →
    member ∈ after.members ∧ ((after.tracker member.tracker).ended → others member.tracker)
  mem_iff : ∀ id, id ∈ after.members.map Member.id ↔
    (id ∈ before.members.map Member.id ∧ id ∉ report.removed ∧ id ∉ report.evicted) ∨
      id ∈ report.added
  length : after.members.length ≤
    before.settings.maxClusterSize.toNat + report.candidates + report.added.length
  tracked : after.Tracked

theorem mem_staying {dropped : List PeerId} {member : Member} :
    member ∈ staying now dropped ↔ member ∈ now.members ∧ member.id ∉ dropped := by
  simp [staying]

theorem mem_leaving {dropped : List PeerId} {member : Member} :
    member ∈ leaving now dropped ↔ member ∈ now.members ∧ member.id ∈ dropped := by
  simp [leaving]

/-- The report of a pass that has added some peers. -/
def reportOf (review : Review) (added : List PeerId) : Report :=
  ⟨review.removed, review.evicted, added, review.candidates⟩

section Steps

variable {left after : Node} {added : List PeerId}

/-- Nothing else has ended the trackers that were going at the beginning of a pass. -/
theorem spared_of_steps (giving : GaveUp others (verdict now).dropped now left)
    (joining : Joined others added left after) {serial : Nat}
    (ended : (after.tracker serial).ended) : (now.tracker serial).ended ∨ others serial ∨
      ∃ member ∈ now.members, member.tracker = serial ∧
        (member.id ∈ (verdict now).removed ∨ member.id ∈ (verdict now).evicted) := by
  rcases joining.spared serial ended with earlier | other
  · rcases giving.continues.spared serial earlier with before | other | ⟨member, leaves, same⟩
    · exact Or.inl before
    · exact Or.inr (Or.inl other)
    · rw [mem_leaving, Review.mem_dropped] at leaves
      exact Or.inr (Or.inr ⟨member, leaves.1, same, leaves.2⟩)
  · exact Or.inr (Or.inl other)

/-- A tracker that has ended makes its neighbor leave, and no two neighbors share one. -/
theorem alive_of_steps (tracked : now.Tracked)
    (giving : GaveUp others (verdict now).dropped now left)
    (joining : Joined others added left after) {member : Member} (held : member ∈ now.members)
    (spared : member.id ∉ (verdict now).dropped) (ended : (after.tracker member.tracker).ended) :
    others member.tracker := by
  rcases spared_of_steps giving joining ended with before | other | ⟨gone, leaves, same, dropped⟩
  · have removed : member.id ∈ (verdict now).removed :=
      ((verdict_rightful tracked).removed member.id).mpr
        ⟨member, held, rfl, distanceOf_of_ended before⟩
    exact absurd (Review.mem_dropped.mpr (Or.inl removed)) spared
  · exact other
  · rw [List.inj_on_of_nodup_map tracked.apart leaves held same] at dropped
    exact absurd (Review.mem_dropped.mpr dropped) spared

theorem mem_iff_of_steps (giving : GaveUp others (verdict now).dropped now left)
    (joining : Joined others added left after) (id : PeerId) :
    id ∈ after.members.map Member.id ↔
      (id ∈ now.members.map Member.id ∧ id ∉ (verdict now).removed ∧
        id ∉ (verdict now).evicted) ∨ id ∈ added := by
  rw [joining.mem_iff, giving.continues.members]
  refine or_congr_left ?_
  simp only [List.mem_map, mem_staying, Review.mem_dropped, not_or]
  constructor
  · rintro ⟨member, ⟨held, spared⟩, rfl⟩
    exact ⟨⟨member, held, rfl⟩, spared⟩
  · rintro ⟨⟨member, held, rfl⟩, spared⟩
    exact ⟨member, ⟨held, spared⟩, rfl⟩

/-- The steps of a pass put together. -/
theorem passed_of_steps (tracked : now.Tracked)
    (giving : GaveUp others (verdict now).dropped now left)
    (joining : Joined others added left after)
    (apart : ∀ id ∈ added, id ∉ left.members.map Member.id)
    (few : added.length ≤ now.settings.candidateTarget.toNat - (verdict now).candidates) :
    Passed others now (reportOf (verdict now) added) after where
  rightful := verdict_rightful tracked
  retired member held dropped := by
    refine joining.ended _ (giving.retired member ?_)
    exact mem_leaving.mpr ⟨held, Review.mem_dropped.mpr dropped⟩
  spared serial ended := spared_of_steps giving joining ended
  added_length := few
  kept member held notRemoved notEvicted := by
    have spared : member.id ∉ (verdict now).dropped := by
      rw [Review.mem_dropped, not_or]
      exact ⟨notRemoved, notEvicted⟩
    have stays : member ∈ left.members := by
      rw [giving.continues.members]
      exact mem_staying.mpr ⟨held, spared⟩
    refine ⟨joining.kept member stays fun also => ?_, ?_⟩
    · exact apart _ also (List.mem_map_of_mem stays)
    · exact alive_of_steps tracked giving joining held spared
  mem_iff := mem_iff_of_steps giving joining
  length := by
    have grown := joining.length
    rw [giving.continues.members] at grown
    exact Nat.le_trans grown (Nat.add_le_add_right (length_staying tracked) _)
  tracked := joining.tracked (giving.tracked tracked)

end Steps

/-- The peers that come in are not tracked yet, and not more than are wanted. -/
theorem nearest_eligible (node : Node) (origin : Coordinate) (wanted : Nat) :
    (nearest origin wanted node.eligible).length ≤ wanted ∧
      ∀ id ∈ (nearest origin wanted node.eligible).map (·.id),
        id ∉ node.members.map Member.id := by
  refine ⟨List.length_take_le _ _, fun id chosen tracked => ?_⟩
  obtain ⟨record, near, rfl⟩ := List.mem_map.mp chosen
  have pool := List.mem_mergeSort.mp (List.mem_of_mem_take near)
  obtain ⟨member, held, same⟩ := List.mem_map.mp tracked
  have untracked := (List.mem_filter.mp pool).2
  rw [tracks, List.any_eq_true.mpr ⟨member, held, decide_eq_true same⟩] at untracked
  simp at untracked

theorem keeps_maintain (tracked : now.Tracked) :
    (meanwhile others).Keeps maintain (Passed others now) now := by
  simp only [maintain, keeps_bind, keeps_get, look_meanwhile]
  refine keeps_readOnly (isReadOnly_forM (fun _ => isReadOnly_request _) _) fun _ asked asking => ?_
  rw [keeps_bind]
  refine keeps_dropNeighbors (asking.tracked tracked) fun left giving => ?_
  simp only [keeps_bind, keeps_get, look_meanwhile]
  refine keeps_addNeighbors fun joined joining => ?_
  refine keeps_readOnly (isReadOnly_request _) fun _ after reported => ?_
  have eligible := nearest_eligible left left.position.coordinate
    (left.settings.candidateTarget.toNat - (verdict now).candidates)
  have ended := joining.trans (.of_continues reported)
  rw [List.append_nil] at ended
  refine passed_of_steps tracked (giving.of_continues asking) ended eligible.2 ?_
  have settings : left.settings = now.settings :=
    giving.continues.settings.trans asking.settings
  rw [List.length_map, ← settings]
  exact eligible.1

/-- Tracking a peer beside the passes is no harm. -/
theorem keeps_track (tracked : now.Tracked) (record : PeerRecord) :
    (meanwhile others).Keeps (track record) (fun _ after => after.Tracked) now := by
  simp only [track, keeps_bind, keeps_get, look_meanwhile]
  split
  · exact tracked
  · exact keeps_addNeighbor fun _ after joined => joined.tracked tracked

theorem keeps_dropAllNeighbors (tracked : now.Tracked) :
    (meanwhile others).Keeps dropAllNeighbors (fun _ after => after.Tracked) now := by
  simp only [dropAllNeighbors, keeps_bind, keeps_get]
  exact keeps_dropNeighbors tracked fun after gaveUp => gaveUp.tracked tracked

/-- One pass restores the bound on the neighbors, whatever is known about them, and ends just the
trackers that have to go. -/
theorem maintain_restores (tracked : now.Tracked) :
    (∃ report after, (meanwhile others).Runs maintain now report after) ∧
      ∀ report after, (meanwhile others).Runs maintain now report after →
        Passed others now report after := by
  refine ⟨exists_runs (fun request now => ?_) maintain, fun report after run => ?_⟩
  · exact ⟨answering .expired (fun _ => .ended) request, now, .refl others now⟩
  · exact (keeps_maintain tracked).ends run

section Overfull

/-- A node that may keep one measured neighbor. It tracks one peer on probation, two measured ones
and one that it gave up pinging, and it knows of two others. -/
def overfull : Node :=
  let settings := { Settings.brisk with sampleWindow := 1, maxClusterSize := 1 }
  let membership := some [.numbered 5, .numbered 6]
  let node := Node.start settings (.numbered 0) ⟨0⟩ .last .none membership
  let tracker (number : Nat) := Tracker.start (.numbered number) settings
  { node with
    trackers := [tracker 1, (tracker 2).succeeded .one, (tracker 3).succeeded .zero,
      (tracker 4).retired]
    members := [1, 2, 3, 4].map fun number => ⟨.ofNat number, number - 1⟩ }

theorem tracked_overfull : overfull.Tracked := ⟨by decide, by decide, by decide⟩

theorem maintain_restores_overfull : overfull.Tracked ∧
    (∃ report after, (meanwhile fun _ => False).Runs maintain overfull report after) ∧
      ∀ report after, (meanwhile fun _ => False).Runs maintain overfull report after →
        Passed (fun _ => False) overfull report after :=
  ⟨tracked_overfull, maintain_restores tracked_overfull⟩

end Overfull

end Maintenance

end Overlay.Node
