import Overlay.Proofs.Binary64.Extended
import Overlay.Proofs.Node.Maintenance

/-!
Whom a maintenance pass puts on probation.

A pass looks for candidates when it has given up the neighbors that have to go, so these may come
back. Peers are ranked by how far away the places are that they have published (`estimate`), and
those that have published none, or one beyond reckoning, come last; as many are taken as are wanted,
or all of them (`maintain_adds_nearest`).
-/

set_option autoImplicit false

namespace Overlay

namespace Neighborhood

variable {origin : Coordinate} {wanted : Nat} {pool : List PeerRecord}

/-- How long the straight line between two places is, reckoned in doubles. -/
def euclidean (left right : Coordinate) : Binary64 :=
  let x := left.x - right.x
  let y := left.y - right.y
  let z := left.z - right.z
  (x * x + y * y + z * z).sqrt

/-- How far away a peer is held to be. Beyond everything are peers that have published no place, and
those where the doubles do not reach. -/
noncomputable def estimate (origin : Coordinate) (record : PeerRecord) : EReal :=
  match record.coordinate with
  | some place =>
    if (euclidean origin place).isFinite then ((euclidean origin place).value : EReal) else ⊤
  | none => ⊤

theorem distance_eq_euclidean (left right : Coordinate) :
    left.distance right = euclidean left right := rfl

theorem extended_estimated (origin : Coordinate) (record : PeerRecord) :
    (estimated origin record).extended = estimate origin record := by
  cases published : record.coordinate with
  | none => simp only [estimated, estimate, published, Option.map_none, Binary64.extended_infinity]
  | some place =>
      simp only [estimated, estimate, published, Option.map_some, distance_eq_euclidean]
      by_cases finite : (euclidean origin place).isFinite
      · rw [if_pos finite, if_pos finite, Binary64.extended_of_isFinite _ finite]
      · rw [if_neg finite, if_neg finite, Binary64.extended_infinity]

/-- A distance that is predicted is finite or infinity, never anything else. -/
theorem isFinite_or_infinity (origin : Coordinate) (record : PeerRecord) :
    (estimated origin record).isFinite ∨ estimated origin record = .infinity := by
  rw [estimated]
  split
  · split
    · next finite => exact Or.inl finite
    · exact Or.inr rfl
  · exact Or.inr rfl

theorem not_isNaN_estimated (origin : Coordinate) (record : PeerRecord) :
    ¬ (estimated origin record).isNaN := by
  rcases isFinite_or_infinity origin record with finite | infinite
  · rw [Binary64.not_isNaN_of_isFinite finite]
    exact Bool.false_ne_true
  · rw [infinite]
    decide

/-- Ranking by the bits does not contradict the order of the predicted distances. -/
theorem orderKey_estimated_lt {near far : PeerRecord}
    (nearer : (estimated origin near).lt (estimated origin far)) :
    (estimated origin near).orderKey < (estimated origin far).orderKey := by
  rcases isFinite_or_infinity origin near with finite | infinite
  · rcases isFinite_or_infinity origin far with finiteFar | infiniteFar
    · exact Binary64.orderKey_lt_of_lt finite finiteFar nearer
    · rw [infiniteFar]
      exact Binary64.orderKey_lt_infinity finite
  · rw [infinite, Binary64.not_infinity_lt] at nearer
    cases nearer

/-- The peers of a pool from near to far. -/
def sorted (origin : Coordinate) (pool : List PeerRecord) : List PeerRecord :=
  pool.mergeSort fun left right =>
    decide ((estimated origin left).orderKey ≤ (estimated origin right).orderKey)

theorem sorted_perm (origin : Coordinate) (pool : List PeerRecord) :
    (sorted origin pool).Perm pool := List.mergeSort_perm pool _

theorem sorted_pairwise (origin : Coordinate) (pool : List PeerRecord) :
    (sorted origin pool).Pairwise fun left right =>
      (estimated origin left).orderKey ≤ (estimated origin right).orderKey := by
  have ranked : (sorted origin pool).Pairwise fun left right =>
      decide ((estimated origin left).orderKey ≤ (estimated origin right).orderKey) := by
    refine List.pairwise_mergeSort (fun _ _ _ first second => ?_) (fun left right => ?_) pool
    · exact decide_eq_true (Nat.le_trans (of_decide_eq_true first) (of_decide_eq_true second))
    · rw [Bool.or_eq_true, decide_eq_true_iff, decide_eq_true_iff]
      exact Nat.le_total _ _
  exact ranked.imp of_decide_eq_true

theorem nearest_eq (origin : Coordinate) (wanted : Nat) (pool : List PeerRecord) :
    nearest origin wanted pool = (sorted origin pool).take wanted := rfl

theorem nearest_subset : nearest origin wanted pool ⊆ pool := fun _ near =>
  (sorted_perm origin pool).mem_iff.mp (List.mem_of_mem_take near)

theorem length_nearest :
    (nearest origin wanted pool).length = min wanted pool.length := by
  rw [nearest_eq, List.length_take, (sorted_perm origin pool).length_eq]

theorem nodup_nearest (distinct : (pool.map (·.id)).Nodup) :
    ((nearest origin wanted pool).map (·.id)).Nodup := by
  refine List.Nodup.sublist ((List.take_sublist _ _).map _) ?_
  exact ((sorted_perm origin pool).map _).nodup_iff.mpr distinct

/-- No peer that is left out is nearer than one that is taken. -/
theorem nearest_le {near far : PeerRecord} (taken : near ∈ nearest origin wanted pool)
    (there : far ∈ pool) (left : far ∉ nearest origin wanted pool) :
    estimate origin near ≤ estimate origin far := by
  refine not_lt.mp fun below => ?_
  have nearer : (estimated origin far).lt (estimated origin near) := by
    rw [← extended_estimated, ← extended_estimated] at below
    exact (Binary64.lt_iff_extended_lt (not_isNaN_estimated origin far)
      (not_isNaN_estimated origin near)).mpr below
  have ranked := sorted_pairwise origin pool
  have member : far ∈ sorted origin pool := (sorted_perm origin pool).mem_iff.mpr there
  rw [← List.take_append_drop wanted (sorted origin pool)] at ranked member
  have behind := (List.mem_append.mp member).resolve_left left
  have ordered := (List.pairwise_append.mp ranked).2.2 near taken far behind
  exact (orderKey_estimated_lt nearer).not_ge ordered

end Neighborhood

namespace Node.Maintenance

open Neighborhood Program Surroundings

/-- The peers that a node is told of or, where nobody tells it, the ones that its engines know. -/
def view (node : Node) : List PeerRecord :=
  match node.membership with
  | some told => told
  | none => node.cachedNodes

theorem knownNodes_eq_view (node : Node) : node.knownNodes = view node := by
  rw [knownNodes, view]
  cases node.membership <;> rfl

/-- Two nodes that choose among the same peers, from the same place. -/
structure ViewsAlike (now after : Node) : Prop where
  known : view after = view now
  place : after.position.coordinate = now.position.coordinate
  name : after.record.id = now.record.id

theorem ViewsAlike.refl (now : Node) : ViewsAlike now now := ⟨rfl, rfl, rfl⟩

theorem ViewsAlike.trans {first second third : Node} (before : ViewsAlike first second)
    (after : ViewsAlike second third) : ViewsAlike first third where
  known := after.known.trans before.known
  place := after.place.trans before.place
  name := after.name.trans before.name

/-- A node whose other work goes on during a pass, but leaves alone what the pass chooses by. -/
def choosing (others : Nat → Prop) : Surroundings Node Node :=
  { meanwhile others with
    Answers := fun _ now _ after => Continues others now after ∧ ViewsAlike now after }

variable {others : Nat → Prop} {now : Node} {α : Type}

@[simp] theorem look_choosing : (choosing others).look now = now := rfl

theorem keeps_choosing {program : Program Node α} {post : α → Node → Prop}
    (keeps : (meanwhile others).Keeps program post now) :
    (choosing others).Keeps program post now :=
  keeps.narrow fun _ _ _ _ answer => answer.1

theorem steady_choosing : (choosing others).Steady fun now after =>
    Continues others now after ∧ ViewsAlike now after where
  refl now := ⟨.refl others now, .refl now⟩
  trans _ _ _ before after := ⟨before.1.trans after.1, before.2.trans after.2⟩
  admits _ _ := trivial
  answers _ _ _ _ answer := answer

/-- Who is given up makes no difference to what is chosen by. -/
theorem keeps_viewsAlike_dropNeighbors {before : Node} (alike : ViewsAlike before now)
    (dropped : List PeerId) :
    (choosing others).Keeps (dropNeighbors dropped) (fun _ => ViewsAlike before) now := by
  simp only [dropNeighbors, keeps_bind, keeps_get, keeps_set]
  refine ⟨trivial, keeps_forM (ViewsAlike before) ⟨alike.known, alike.place, alike.name⟩ ?_
    fun _ => id⟩
  intro member _ middle sofar
  rw [endTracker, keeps_bind, keeps_modify]
  refine ⟨trivial, steady_choosing.keeps (isReadOnly_request _) fun _ after waited => ?_⟩
  have retired : ViewsAlike before (middle.withTracker member.tracker Tracker.retired) :=
    ⟨sofar.known, sofar.place, sofar.name⟩
  exact retired.trans waited.2

/-- The peers that a pass may put on probation once it has dropped some: known ones, neither the
node itself nor tracked any more. -/
def eligibleWithout (node : Node) (dropped : List PeerId) : List PeerRecord :=
  (view node).filter fun record =>
    record.id != node.record.id && !(staying node dropped).any (·.id = record.id)

/-- Whom a pass has added: the nearest of those that it might, as many as were wanted. -/
structure AddsNearest (before : Node) (report : Report) : Prop where
  nodup : report.added.Nodup
  notLocal : before.record.id ∉ report.added
  untracked : ∀ member ∈ before.members, member.id ∈ report.added →
    member.id ∈ report.removed ∨ member.id ∈ report.evicted
  eligible : ∀ id ∈ report.added,
    ∃ record ∈ eligibleWithout before (report.removed ++ report.evicted), record.id = id
  length : report.added.length =
    min (before.settings.candidateTarget.toNat - report.candidates)
      (eligibleWithout before (report.removed ++ report.evicted)).length
  nearest : ∀ near ∈ eligibleWithout before (report.removed ++ report.evicted),
    near.id ∈ report.added →
    ∀ far ∈ eligibleWithout before (report.removed ++ report.evicted), far.id ∉ report.added →
      estimate before.position.coordinate near ≤ estimate before.position.coordinate far

/-- A peer that is eligible has a name of its own in the view. -/
theorem eligible_inj (distinct : ((view now).map (·.id)).Nodup) {dropped : List PeerId}
    {left right : PeerRecord} (one : left ∈ eligibleWithout now dropped)
    (other : right ∈ eligibleWithout now dropped) (same : left.id = right.id) : left = right :=
  List.inj_on_of_nodup_map distinct (List.mem_of_mem_filter one) (List.mem_of_mem_filter other) same

theorem mem_eligibleWithout {dropped : List PeerId} {record : PeerRecord} :
    record ∈ eligibleWithout now dropped ↔ record ∈ view now ∧
      record.id ≠ now.record.id ∧ ∀ member ∈ now.members, member.id = record.id →
        member.id ∈ dropped := by
  rw [eligibleWithout, List.mem_filter]
  refine and_congr_right fun _ => ?_
  simp only [Bool.and_eq_true, bne_iff_ne, Bool.not_eq_true', List.any_eq_false, mem_staying,
    decide_eq_true_eq]
  refine and_congr_right fun _ => ?_
  constructor
  · intro apart member held same
    by_contra spared
    exact apart member ⟨held, spared⟩ same
  · rintro gone member ⟨held, spared⟩ same
    exact spared (gone member held same)

theorem adds_nearest (distinct : ((view now).map (·.id)).Nodup) :
    AddsNearest now (reportOf (verdict now)
      ((nearest now.position.coordinate
        (now.settings.candidateTarget.toNat - (verdict now).candidates)
        (eligibleWithout now (verdict now).dropped)).map (·.id))) := by
  generalize wanted : now.settings.candidateTarget.toNat - (verdict now).candidates = count
  have pool {id : PeerId} (added : id ∈ (nearest now.position.coordinate count
      (eligibleWithout now (verdict now).dropped)).map (·.id)) :
      ∃ record ∈ eligibleWithout now (verdict now).dropped, record.id = id := by
    obtain ⟨record, near, rfl⟩ := List.mem_map.mp added
    exact ⟨record, nearest_subset near, rfl⟩
  constructor
  case nodup => exact nodup_nearest (distinct.sublist (List.filter_sublist.map _))
  case notLocal =>
    intro added
    obtain ⟨record, eligible, same⟩ := pool added
    exact (mem_eligibleWithout.mp eligible).2.1 same
  case untracked =>
    intro member held added
    obtain ⟨record, eligible, same⟩ := pool added
    exact Review.mem_dropped.mp ((mem_eligibleWithout.mp eligible).2.2 member held same.symm)
  case eligible => exact fun id added => pool added
  case length =>
    change List.length (List.map _ _) = _
    rw [List.length_map, length_nearest]
    exact congrArg (min · _) wanted.symm
  case nearest =>
    intro near eligible added far other left
    obtain ⟨record, taken, same⟩ := List.mem_map.mp added
    obtain rfl := eligible_inj distinct (nearest_subset taken) eligible same
    exact nearest_le taken other fun also => left (List.mem_map_of_mem also)

theorem keeps_addsNearest (tracked : now.Tracked)
    (distinct : ((view now).map (·.id)).Nodup) :
    (choosing others).Keeps maintain (fun report _ => AddsNearest now report) now := by
  simp only [maintain, keeps_bind, keeps_get, look_choosing]
  refine steady_choosing.keeps (isReadOnly_forM (fun _ => isReadOnly_request _) _) ?_
  intro _ asked asking
  rw [keeps_bind]
  have gaveUp : (choosing others).Keeps (dropNeighbors (verdict now).dropped)
      (fun _ => GaveUp others (verdict now).dropped now) asked :=
    keeps_choosing (keeps_dropNeighbors (asking.1.tracked tracked) fun left giving =>
      giving.of_continues asking.1)
  refine (gaveUp.and (keeps_viewsAlike_dropNeighbors asking.2 _)).mono ?_
  rintro _ left ⟨giving, alike⟩
  simp only [keeps_bind, keeps_get, look_choosing]
  have pool : left.eligible = eligibleWithout now (verdict now).dropped := by
    simp only [eligible, eligibleWithout, tracks, knownNodes_eq_view, alike.known, alike.name,
      giving.continues.members]
  have settings : left.settings = now.settings := giving.continues.settings
  rw [pool, alike.place, settings]
  refine keeps_forM (fun _ => True) trivial (fun record _ middle _ => ?_) fun _ _ => ?_
  · simp only [addNeighbor, keeps_bind, keeps_get, keeps_set]
    exact ⟨trivial, steady_choosing.keeps (isReadOnly_request _) fun _ _ _ => trivial⟩
  · exact steady_choosing.keeps (isReadOnly_request _) fun _ _ _ => adds_nearest distinct

/-- A pass comes to its end, and puts the nearest peers on probation of those that are eligible when
it has given up others: as many as are wanted, or all of them. The count of those wanted goes by the
neighbors that were on probation when the pass began. -/
theorem maintain_adds_nearest (tracked : now.Tracked)
    (distinct : ((view now).map (·.id)).Nodup) :
    (∃ report after, (choosing others).Runs maintain now report after) ∧
      ∀ report after, (choosing others).Runs maintain now report after →
        Passed others now report after ∧ AddsNearest now report := by
  refine ⟨exists_runs (fun request now => ?_) maintain, fun report after run => ?_⟩
  · exact ⟨answering .expired (fun _ => .ended) request, now, .refl others now, .refl now⟩
  · have passed : (choosing others).Keeps maintain (Passed others now) now :=
      keeps_choosing (keeps_maintain tracked)
    exact (passed.and (keeps_addsNearest tracked distinct)).ends run

section Placed

/-- An overfull node that wants two more peers on probation, with a view that lists some of its
neighbors, itself, a peer without a coordinate and two with one. -/
def surrounded : Node :=
  let placed (number x : Nat) : PeerRecord :=
    { PeerRecord.numbered number with coordinate := some ⟨.ofNat x, .zero, .zero⟩ }
  { overfull with
    settings := { overfull.settings with candidateTarget := 3 }
    membership := some
      [.numbered 0, .numbered 1, .numbered 4, .numbered 5, placed 6 9, placed 7 2] }

theorem tracked_surrounded : surrounded.Tracked := ⟨by decide, by decide, by decide⟩

theorem distinct_surrounded : ((view surrounded).map (·.id)).Nodup := by decide

theorem maintain_adds_nearest_surrounded :
    surrounded.Tracked ∧ ((view surrounded).map (·.id)).Nodup ∧
      (∃ report after, (choosing fun _ => False).Runs maintain surrounded report after) ∧
        ∀ report after, (choosing fun _ => False).Runs maintain surrounded report after →
          Passed (fun _ => False) surrounded report after ∧ AddsNearest surrounded report :=
  ⟨tracked_surrounded, distinct_surrounded,
    maintain_adds_nearest tracked_surrounded distinct_surrounded⟩

end Placed

end Node.Maintenance

end Overlay
