import Overlay.Proofs.Node.Maintenance

/-!
Neighbors out of reach, and their way back.

A pass gives up the neighbors out of reach and ends their trackers. It chooses candidates only then,
among the peers of its view of the network that are not tracked any more. So a peer that it has just
given up is missing afterwards unless the view lists it; where it does, and candidates are wanted,
the peer may come back at once, on probation and with a new tracker (`unreachable_dismissed`).
-/

set_option autoImplicit false

namespace Overlay.Node.Maintenance

open Neighborhood Program Surroundings

/-- The view of the network has no peers but some. -/
def Lists (listed : PeerId → Prop) (node : Node) : Prop :=
  ∀ record ∈ node.knownNodes, listed record.id

/-- A node whose other work goes on during a pass, and whose view of the network never comes to list
any peers but some. -/
def overlooking (others : Nat → Prop) (listed : PeerId → Prop) : Surroundings Node Node :=
  { meanwhile others with
    Answers := fun _ now _ after =>
      Continues others now after ∧ (Lists listed now → Lists listed after) }

/-- Neighbors that were not there before have new trackers, and are listed. -/
structure Recruits (listed : PeerId → Prop) (before after : Node) : Prop where
  length : before.trackers.length ≤ after.trackers.length
  members : ∀ member ∈ after.members, member ∈ before.members ∨
    before.trackers.length ≤ member.tracker ∧ listed member.id

variable {others : Nat → Prop} {listed : PeerId → Prop} {now : Node} {α : Type}

section Recruits

variable {first second third : Node}

theorem Recruits.of_continues (continues : Continues others first second) :
    Recruits listed first second where
  length := Nat.le_of_eq continues.length.symm
  members _ held := Or.inl (continues.members ▸ held)

theorem Recruits.trans (before : Recruits listed first second)
    (after : Recruits listed second third) : Recruits listed first third where
  length := Nat.le_trans before.length after.length
  members member held := by
    rcases after.members member held with earlier | ⟨new, named⟩
    · exact before.members member earlier
    · exact Or.inr ⟨Nat.le_trans before.length new, named⟩

theorem recruits_withNeighbor (node : Node) {record : PeerRecord} (named : listed record.id) :
    Recruits listed node (node.withNeighbor record) where
  length := by
    rw [withNeighbor, List.length_append]
    exact Nat.le_add_right _ _
  members member held := by
    rcases List.mem_append.mp held with old | new
    · exact Or.inl (List.mem_of_mem_filter old)
    · rw [List.mem_singleton.mp new]
      exact Or.inr ⟨Nat.le_refl _, named⟩

end Recruits

@[simp] theorem look_overlooking : (overlooking others listed).look now = now := rfl

theorem keeps_overlooking (listed : PeerId → Prop) {program : Program Node α}
    {post : α → Node → Prop} (keeps : (meanwhile others).Keeps program post now) :
    (overlooking others listed).Keeps program post now :=
  keeps.narrow fun _ _ _ _ answer => answer.1

theorem steady_overlooking : (overlooking others listed).Steady fun now after =>
    Continues others now after ∧ (Lists listed now → Lists listed after) where
  refl now := ⟨.refl others now, id⟩
  trans _ _ _ before after := ⟨before.1.trans after.1, after.2 ∘ before.2⟩
  admits _ _ := trivial
  answers _ _ _ _ answer := answer

/-- Which neighbors there are and what their trackers do makes no difference to the view. -/
theorem keeps_lists_dropNeighbors (lists : Lists listed now) (dropped : List PeerId) :
    (overlooking others listed).Keeps (dropNeighbors dropped) (fun _ => Lists listed) now := by
  simp only [dropNeighbors, keeps_bind, keeps_get, keeps_set]
  refine ⟨trivial, keeps_forM (Lists listed) lists (fun member _ middle listing => ?_) fun _ => id⟩
  rw [endTracker, keeps_bind, keeps_modify]
  refine ⟨trivial, steady_overlooking.keeps (isReadOnly_request _) fun _ after waited => ?_⟩
  exact waited.2 listing

theorem keeps_recruits_addNeighbors {added : List PeerRecord}
    (named : ∀ record ∈ added, listed record.id) {post : Unit → Node → Prop}
    (holds : ∀ after, Recruits listed now after → post () after) :
    (overlooking others listed).Keeps (added.forM fun record => do
      let _ ← addNeighbor record
      pure ()) post now := by
  refine keeps_forM (Recruits listed now) (.of_continues (.refl others now)) ?_ holds
  intro record chosen middle recruits
  simp only [addNeighbor, keeps_bind, keeps_get, keeps_set]
  refine ⟨trivial, steady_overlooking.keeps (isReadOnly_request _) fun _ after waited => ?_⟩
  have joined := recruits_withNeighbor middle (named record chosen)
  exact recruits.trans (joined.trans (.of_continues waited.1))

/-- Whoever is a neighbor after a pass was spared by the verdict, or is listed and has a new
tracker. -/
def Renewed (listed : PeerId → Prop) (before after : Node) : Prop :=
  ∀ member ∈ after.members, member ∈ staying before (verdict before).dropped ∨
    before.trackers.length ≤ member.tracker ∧ listed member.id

theorem keeps_maintain_renewed (tracked : now.Tracked) (lists : Lists listed now) :
    (overlooking others listed).Keeps maintain (fun _ => Renewed listed now) now := by
  simp only [maintain, keeps_bind, keeps_get, look_overlooking]
  refine steady_overlooking.keeps (isReadOnly_forM (fun _ => isReadOnly_request _) _) ?_
  intro _ asked asking
  rw [keeps_bind]
  have gaveUp : (overlooking others listed).Keeps (dropNeighbors (verdict now).dropped)
      (fun _ => GaveUp others (verdict now).dropped now) asked :=
    keeps_overlooking listed (keeps_dropNeighbors (asking.1.tracked tracked) fun left giving =>
      giving.of_continues asking.1)
  refine (gaveUp.and (keeps_lists_dropNeighbors (asking.2 lists) _)).mono ?_
  rintro _ left ⟨giving, listing⟩
  simp only [keeps_bind, keeps_get, look_overlooking]
  have chosen (wanted : Nat) (record : PeerRecord)
      (near : record ∈ nearest left.position.coordinate wanted left.eligible) :
      listed record.id := by
    have pool := List.mem_mergeSort.mp (List.mem_of_mem_take near)
    exact listing record (List.mem_of_mem_filter pool)
  refine keeps_recruits_addNeighbors (chosen _) fun joined recruits => ?_
  refine steady_overlooking.keeps (isReadOnly_request _) fun _ after reported => ?_
  intro member held
  rw [reported.1.members] at held
  have before := recruits.members member held
  rw [giving.continues.members, giving.continues.length] at before
  exact before

/-- What a pass leaves of a neighbor that was out of reach. -/
structure Dismissed (listed : PeerId → Prop) (before : Node) (member : Member) (report : Report)
    (after : Node) : Prop where
  removed : member.id ∈ report.removed
  ended : (after.tracker member.tracker).ended
  /-- The peer has come back with a new tracker, because it is listed and candidates were wanted. -/
  back : ∀ other ∈ after.members, other.id = member.id →
    before.trackers.length ≤ other.tracker ∧ listed member.id ∧ member.id ∈ report.added ∧
      report.candidates < before.settings.candidateTarget.toNat

theorem dismissed_of_passed (tracked : now.Tracked) {member : Member}
    (held : member ∈ now.members) (lost : now.distanceOf member.tracker = .unreachable)
    {report : Report} {after : Node} (passed : Passed others now report after)
    (renewed : Renewed listed now after) : Dismissed listed now member report after := by
  have gone : ∃ other ∈ now.members, other.id = member.id ∧
      now.distanceOf other.tracker = .unreachable := ⟨member, held, rfl, lost⟩
  have removed : member.id ∈ report.removed := (passed.rightful.removed member.id).mpr gone
  refine ⟨removed, passed.retired member held (Or.inl removed), fun other there same => ?_⟩
  have added : member.id ∈ report.added := by
    have named := (passed.mem_iff member.id).mp (List.mem_map.mpr ⟨other, there, same⟩)
    exact named.resolve_left fun spared => spared.2.1 removed
  have wanted : report.candidates < now.settings.candidateTarget.toNat := by
    have few := passed.added_length
    have some := List.length_pos_of_mem added
    omega
  rcases renewed other there with spared | ⟨new, named⟩
  · have dropped : other.id ∈ (verdict now).dropped := by
      rw [same, Review.mem_dropped]
      exact Or.inl (((verdict_rightful tracked).removed member.id).mpr gone)
    exact absurd dropped (mem_staying.mp spared).2
  · exact ⟨new, same ▸ named, added, wanted⟩

/-- A pass comes to its end, and gives up a neighbor that was out of reach when it began. The peer
is a neighbor afterwards only if the view lists it and candidates were wanted, and then with a new
tracker. -/
theorem unreachable_dismissed (tracked : now.Tracked) (lists : Lists listed now) {member : Member}
    (held : member ∈ now.members) (lost : now.distanceOf member.tracker = .unreachable) :
    (∃ report after, (overlooking others listed).Runs maintain now report after) ∧
      ∀ report after, (overlooking others listed).Runs maintain now report after →
        Dismissed listed now member report after := by
  refine ⟨exists_runs (fun request now => ?_) maintain, fun report after run => ?_⟩
  · exact ⟨answering .expired (fun _ => .ended) request, now, .refl others now, id⟩
  · have passed : (meanwhile others).Keeps maintain (Passed others now) now :=
      keeps_maintain tracked
    have both := ((keeps_overlooking listed passed).and
      (keeps_maintain_renewed tracked lists)).ends run
    exact dismissed_of_passed tracked held lost both.1 both.2

section Relisted

/-- The neighbor that an overfull node has given up pinging. -/
def silent : Member := ⟨.ofNat 4, 3⟩

theorem lists_overfull : Lists (· ≠ silent.id) overfull := by
  unfold Lists
  decide

/-- The view lists others only, so the neighbor stays away. -/
theorem unreachable_dismissed_overfull :
    overfull.Tracked ∧ Lists (· ≠ silent.id) overfull ∧ silent ∈ overfull.members ∧
      overfull.distanceOf silent.tracker = .unreachable ∧
      ∃ report after,
        (overlooking (fun _ => False) (· ≠ silent.id)).Runs maintain overfull report after ∧
          Dismissed (· ≠ silent.id) overfull silent report after ∧
          silent.id ∉ after.members.map Member.id := by
  have there : silent ∈ overfull.members := by decide
  have lost : overfull.distanceOf silent.tracker = .unreachable := by decide
  obtain ⟨⟨report, after, run⟩, dismissed⟩ :=
    unreachable_dismissed tracked_overfull lists_overfull there lost
  refine ⟨tracked_overfull, lists_overfull, there, lost, report, after, run, ?_⟩
  refine ⟨dismissed report after run, fun back => ?_⟩
  obtain ⟨other, held, same⟩ := List.mem_map.mp back
  exact ((dismissed report after run).back other held same).2.1 rfl

/-- A node that has given up pinging its only neighbor, with a view that still lists the peer. -/
def relisting : Node :=
  let node := Node.start .brisk (.numbered 0) ⟨0⟩ .last .none (some [.numbered 4])
  { node with
    trackers := [(Tracker.start (.numbered 4) .brisk).retired]
    members := [⟨.ofNat 4, 0⟩] }

/-- A pass of that node, during which nothing else happens. -/
def relisted : Report × Node :=
  (meanwhile fun _ => False).play (answering .expired fun _ => .ended) maintain relisting

/-- A pass may put a neighbor that was out of reach on probation in the same breath. -/
theorem unreachable_readmitted : ¬ ∀ (others : Nat → Prop) (now after : Node) (report : Report),
    now.Tracked → (meanwhile others).Runs maintain now report after →
      ∀ member ∈ now.members, now.distanceOf member.tracker = .unreachable →
        member.id ∉ after.members.map Member.id := by
  intro always
  have tracked : relisting.Tracked := ⟨by decide, by decide, by decide⟩
  have run : (meanwhile fun _ => False).Runs maintain relisting relisted.1 relisted.2 :=
    runs_play (fun _ now => Continues.refl _ now) maintain relisting
  have gone := always _ _ _ _ tracked run ⟨.ofNat 4, 0⟩ (by decide) (by decide)
  exact gone (by decide +kernel)

end Relisted

end Overlay.Node.Maintenance
