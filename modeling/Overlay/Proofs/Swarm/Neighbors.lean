import Overlay.Node.Neighbors
import Overlay.Proofs.Node.Membership
import Overlay.Proofs.Swarm.Gossip

/-!
Measuring, tracking and choosing neighbors in a swarm.
-/

set_option autoImplicit false

namespace Overlay.Swarm

open Attempt Chance Node Surroundings

variable {timing : Timing} {now : View} {chronicle : Chronicle} {link : Link}

section Measuring

variable {stream : StreamId}

theorem carries_vivaldi (tag : link.tag = .vivaldi) : Carries timing chronicle link := by
  refine carries_other ?_ fun info => ?_
  · rw [tag]
    decide
  · exact absurd (tag.symm.trans info) (by decide)

theorem keeps_echo {limit : Limit} {rounds : Nat} {next : UInt8} {best : Binary64}
    {post : Except Failure Binary64 → View → Prop} (sound : ViewSound timing now)
    (held : now.link = some link) (named : link.name = stream) (tag : link.tag = .vivaldi)
    (holds : ∀ result after, Reaches timing now after → post result after) :
    (world timing).Keeps (echo stream limit rounds next best).run post now := by
  induction rounds generalizing now link next best with
  | zero => exact holds _ now (.refl sound)
  | succ rounds ih =>
      simp only [echo, keeps_run_bind, keeps_run_perform]
      refine keeps_now fun before => keeps_send sound held named ?_ ?_
      · exact fun deadline => carries_vivaldi tag
      · intro result sending reached kept
        cases result with
        | error failure => exact holds _ sending reached
        | ok _ =>
            refine keeps_receiveByte reached.sound kept named ?_ ?_
            · intro byte receiving got further kept
              have whole := reached.trans further
              refine keeps_run_ite (fun _ => holds _ receiving whole) fun _ => ?_
              simp only [keeps_run_bind, keeps_run_perform]
              refine keeps_now fun later => ih further.sound kept named tag ?_
              intro result after last
              exact holds result after (whole.trans last)
            · intro failure after further
              exact holds _ after (reached.trans further)

theorem keeps_measure {address : SocketAddress}
    {post : Except Failure (Vivaldi.Sample Binary64) → View → Prop} (sound : ViewSound timing now)
    (holds : ∀ result after, Reaches timing now after → post result after) :
    (world timing).Keeps (Node.measure address).run post now := by
  simp only [Node.measure, keeps_run_bind, keeps_run_get]
  refine keeps_limit fun limit => keeps_connected sound ?_ fun failure => holds _
  intro link opening reached held tag _ _ _ _
  change Reaches timing now opening at reached
  simp only [keeps_run_bind]
  refine keeps_receive reached.sound held rfl ?_ ?_
  · intro reading peer got further _ _ _ _ _ kept
    have whole := reached.trans further
    refine keeps_echo further.sound kept rfl tag ?_
    intro result after last
    cases result with
    | ok roundTrip => exact holds _ after (whole.trans last)
    | error failure => exact holds _ after (whole.trans last)
  · intro failure after further
    exact holds _ after (reached.trans further)

theorem evolves_publish (sound : ViewSound timing now) (position : Vivaldi.State Binary64)
    (coordinate : Coordinate) :
    Evolves timing now ({ now.node with position }.publish coordinate) where
  sound := by
    have grows := now.chronicle.advertise_grows (now.node.record.publish coordinate)
    exact ⟨now.chronicle.head?_advertise _, sound.node.bootstrap, sound.node.membership,
      sound.node.lifetime, fun engine member => (sound.node.engines engine member).mono grows,
      fun tracker member => (sound.node.trackers tracker member).mono grows⟩
  settings := rfl
  clock := rfl
  record := Or.inr ⟨coordinate, rfl⟩
  engines algorithm := .refl _

theorem keeps_observe {sample : Vivaldi.Sample Binary64}
    {post : Except Failure Binary64 → View → Prop} (sound : ViewSound timing now)
    (holds : ∀ result after, Reaches timing now after → post result after) :
    (world timing).Keeps (observe sample).run post now := by
  simp only [observe, keeps_run_bind, keeps_run_perform]
  apply keeps_drawing sound
  intro spare tossed drawn
  simp only [keeps_run_get, world_look]
  split
  · exact holds _ tossed drawn
  · next position predicted _ =>
      simp only [keeps_run_bind, keeps_run_modify]
      have evolves := evolves_publish drawn.sound position position.coordinate
      exact ⟨evolves, holds _ _ (drawn.trans (evolves.reaches drawn.sound))⟩

theorem keeps_ping {address : SocketAddress} {update : Bool}
    {post : Except Failure (Vivaldi.Sample Binary64) → View → Prop} (sound : ViewSound timing now)
    (holds : ∀ result after, Reaches timing now after → post result after) :
    (world timing).Keeps (ping address update).run post now := by
  simp only [ping, keeps_run_bind, keeps_run_perform]
  apply keeps_measure sound
  intro result measured reached
  cases result with
  | error failure => exact holds _ measured reached
  | ok sample =>
      refine keeps_report (keeps_run_ite (fun _ => ?_) fun _ => holds _ measured reached)
      rw [keeps_run_bind]
      apply keeps_observe reached.sound
      intro result after further
      cases result with
      | ok predicted => exact holds _ after (reached.trans further)
      | error failure => exact holds _ after (reached.trans further)

theorem keeps_echoBack {limit : Limit} {rounds : Nat} {post : Except Failure Unit → View → Prop}
    (sound : ViewSound timing now) (held : now.link = some link) (named : link.name = stream)
    (tag : link.tag = .vivaldi)
    (holds : ∀ result after, Reaches timing now after → post result after) :
    (world timing).Keeps (echoBack stream limit rounds).run post now := by
  induction rounds generalizing now link with
  | zero => exact holds _ now (.refl sound)
  | succ rounds ih =>
      simp only [echoBack, keeps_run_bind, keeps_run_perform]
      refine keeps_read sound held named ?_
      intro reply receiving peer got reached _ _ _ kept _
      cases reply with
      | bytes content =>
          refine (keeps_run_bind _ _).mpr (keeps_send reached.sound kept named ?_ ?_)
          · exact fun deadline => carries_vivaldi tag
          · intro result sending further kept
            have whole := reached.trans further
            cases result with
            | error failure => exact holds _ sending whole
            | ok _ =>
                apply ih further.sound kept named tag
                intro result after last
                exact holds result after (whole.trans last)
      | ended => exact holds _ receiving reached
      | expired => exact holds _ receiving reached

theorem keeps_serveEcho {outer : Option Limit} {post : Except Failure Unit → View → Prop}
    (sound : ViewSound timing now) (held : now.link = some link) (named : link.name = stream)
    (tag : link.tag = .vivaldi)
    (holds : ∀ result after, Reaches timing now after → post result after) :
    (world timing).Keeps (serveEcho stream outer).run post now := by
  simp only [serveEcho, keeps_run_bind, keeps_run_get]
  refine keeps_limit fun limit => keeps_send sound held named ?_ ?_
  · exact fun deadline => carries_vivaldi tag
  · intro result sending reached kept
    cases result with
    | error failure => exact holds _ sending reached
    | ok _ =>
        apply keeps_echoBack reached.sound kept named tag
        intro result after further
        exact holds result after (reached.trans further)

end Measuring

section Tracking

variable {serial : Nat}

theorem evolves_tracker {change : Tracker → Tracker} (sound : ViewSound timing now)
    (genuine : ∀ tracker : Tracker, Genuine now.chronicle tracker.record →
      Genuine now.chronicle (change tracker).record) :
    Evolves timing now (now.node.withTracker serial change) := by
  refine evolves_frame sound.node rfl rfl rfl rfl rfl rfl fun tracker member => ?_
  rcases mem_withTracker member with kept | ⟨before, there, rfl⟩
  · exact sound.node.trackers tracker kept
  · exact genuine before (sound.node.trackers before there)

/-- Changing a tracker that goes on with a genuine record. -/
theorem keeps_withTracker {change : Tracker → Tracker} {post : PUnit → View → Prop}
    (sound : ViewSound timing now)
    (genuine : ∀ tracker : Tracker, Genuine now.chronicle tracker.record →
      Genuine now.chronicle (change tracker).record)
    (holds : ∀ after, Reaches timing now after → post ⟨⟩ after) :
    (world timing).Keeps (modify (·.withTracker serial change) : Program Node PUnit) post now := by
  have evolves : Evolves timing now (now.node.withTracker serial change) :=
    evolves_tracker sound genuine
  exact keeps_modify_same sound evolves rfl (holds _ (evolves.reaches_same sound rfl))

theorem keeps_probe {post : Except Failure Binary64 → View → Prop} (sound : ViewSound timing now)
    (holds : ∀ result after, Reaches timing now after → post result after) :
    (world timing).Keeps (probe serial).run post now := by
  simp only [probe, keeps_run_bind, keeps_run_get]
  refine keeps_requestRecord sound ?_ fun failure => holds _
  intro record told reached recent
  have refresh : (world timing).Keeps (ExceptT.run (do
      modify (·.withTracker serial (·.refreshed record))
      let sample ← ping record.address false
      pure sample.roundTrip)) post told := by
    rw [keeps_run_bind, keeps_run_modify]
    have evolves : Evolves timing told (told.node.withTracker serial (·.refreshed record)) :=
      evolves_tracker reached.sound fun _ _ => recent.genuine
    refine ⟨evolves, ?_⟩
    have refreshed := reached.trans (evolves.reaches reached.sound)
    simp only [keeps_run_bind]
    apply keeps_ping refreshed.sound
    intro result after further
    cases result with
    | ok sample => exact holds _ after (refreshed.trans further)
    | error failure => exact holds _ after (refreshed.trans further)
  refine keeps_run_ite (fun _ => ?_) fun _ => refresh
  rw [keeps_run_bind, keeps_run_perform]
  exact keeps_report refresh

theorem keeps_pingOnce {post : Except Failure Binary64 → View → Prop} (sound : ViewSound timing now)
    (holds : ∀ result after, Reaches timing now after → post result after) :
    (world timing).Keeps (pingOnce serial).run post now := by
  change (world timing).Keeps ((probe serial).run >>= _) post now
  rw [keeps_bind]
  apply keeps_probe sound
  intro result probed reached
  rw [keeps_bind]
  refine keeps_withTracker reached.sound (fun tracker genuine => ?_) fun after further => ?_
  · cases result with
    | ok roundTrip => exact genuine
    | error failure => exact genuine
  · exact holds result after (reached.trans further)

theorem keeps_trackerTurn {post : Bool → View → Prop} (sound : ViewSound timing now)
    (holds : ∀ continues after, Reaches timing now after → post continues after) :
    (world timing).Keeps (trackerTurn serial) post now := by
  have stop (tracker : Tracker) {middle : View} (reached : Reaches timing now middle) :
      (world timing).Keeps (trackerTurn.stop tracker) post middle := by
    rw [trackerTurn.stop, keeps_bind]
    exact keeps_report (holds false middle reached)
  simp only [trackerTurn, keeps_bind, keeps_get]
  apply keeps_ite (fun _ => stop _ (.refl sound))
  intro _
  rw [keeps_bind]
  apply keeps_pingOnce sound
  intro outcome pinged reached
  simp only [keeps_bind, keeps_get]
  refine keeps_report (keeps_ite (fun _ => keeps_ite (fun _ => stop _ reached) fun _ => ?_)
    fun _ => keeps_ite (fun _ => holds true pinged reached) fun _ => ?_)
  · rw [keeps_bind]
    apply keeps_pingOnce reached.sound
    intro result after further
    cases result with
    | ok roundTrip => exact holds true after (reached.trans further)
    | error failure => exact stop _ (reached.trans further)
  · rw [keeps_bind]
    apply keeps_drawing reached.sound
    intro delay drawn further
    rw [keeps_bind]
    apply keeps_pause further.sound
    intro _ after last
    exact holds true after (reached.trans (further.trans last))

theorem keeps_addNeighbor {record : PeerRecord} {post : Nat → View → Prop}
    (sound : ViewSound timing now) (genuine : Genuine now.chronicle record)
    (holds : ∀ serial after, Reaches timing now after → post serial after) :
    (world timing).Keeps (addNeighbor record) post now := by
  simp only [addNeighbor, keeps_bind, keeps_get, keeps_set, world_look]
  have evolves : Evolves timing now { now.node with
      trackers := now.node.trackers ++ [Tracker.start record now.node.settings]
      members := (now.node.members.filter (·.id != record.id)) ++
        [Member.mk record.id now.node.trackers.length] } := by
    refine evolves_frame sound.node rfl rfl rfl rfl rfl rfl fun tracker member => ?_
    rcases List.mem_append.mp member with before | added
    · exact sound.node.trackers tracker before
    · cases List.mem_singleton.mp added
      exact genuine
  exact ⟨evolves, keeps_launch fun _ => holds _ _ (evolves.reaches sound)⟩

theorem keeps_endTracker {post : Unit → View → Prop} (sound : ViewSound timing now)
    (holds : ∀ after, Reaches timing now after → post () after) :
    (world timing).Keeps (endTracker serial) post now := by
  rw [endTracker, keeps_bind]
  refine keeps_withTracker sound (fun _ genuine => genuine) fun after reached => ?_
  exact keeps_raise (holds after reached)

theorem keeps_forM {α : Type} {items : List α} {each : α → Program Node Unit}
    {post : Unit → View → Prop} (sound : ViewSound timing now)
    (one : ∀ item ∈ items, ∀ middle, Reaches timing now middle →
      (world timing).Keeps (each item) (fun _ after => Reaches timing middle after) middle)
    (holds : ∀ after, Reaches timing now after → post () after) :
    (world timing).Keeps (items.forM each) post now := by
  induction items generalizing now with
  | nil => exact holds now (.refl sound)
  | cons item items ih =>
      change (world timing).Keeps (each item >>= fun _ => items.forM each) post now
      rw [keeps_bind]
      apply (one item List.mem_cons_self now (.refl sound)).mono
      intro _ middle reached
      refine ih reached.sound (fun other member later further => ?_) fun after further => ?_
      · exact one other (List.mem_cons_of_mem item member) later (reached.trans further)
      · exact holds after (reached.trans further)

theorem keeps_dropNeighbors {dropped : List PeerId} {post : Unit → View → Prop}
    (sound : ViewSound timing now) (holds : ∀ after, Reaches timing now after → post () after) :
    (world timing).Keeps (dropNeighbors dropped) post now := by
  simp only [dropNeighbors, keeps_bind, keeps_get, keeps_set, world_look]
  have evolves (members : List Member) : Evolves timing now { now.node with members } :=
    evolves_frame sound.node rfl rfl rfl rfl rfl rfl sound.node.trackers
  refine ⟨evolves _, ?_⟩
  have kept := (evolves (now.node.members.partition fun member =>
    dropped.contains member.id).2).reaches sound
  refine keeps_forM kept.sound (fun member _ middle reached => ?_) fun after reached => ?_
  · exact keeps_endTracker reached.sound fun after further => further
  · exact holds after (kept.trans reached)

theorem keeps_dropAllNeighbors {post : Unit → View → Prop} (sound : ViewSound timing now)
    (holds : ∀ after, Reaches timing now after → post () after) :
    (world timing).Keeps dropAllNeighbors post now := by
  simp only [dropAllNeighbors, keeps_bind, keeps_get]
  exact keeps_dropNeighbors sound holds

/-- Whoever may become a neighbor is known by a genuine record. -/
theorem NodeSound.known {node : Node} (sound : NodeSound timing chronicle node)
    {record : PeerRecord} (member : record ∈ node.knownNodes) : Genuine chronicle record := by
  rw [knownNodes, sound.membership] at member
  obtain ⟨engine, runs, copy, held, rfl⟩ := mem_of_mem_cachedNodes member
  exact ((sound.engines engine runs).cache copy held).genuine

theorem keeps_maintain {post : Neighborhood.Report → View → Prop} (sound : ViewSound timing now)
    (holds : ∀ report after, Reaches timing now after → post report after) :
    (world timing).Keeps maintain post now := by
  simp only [maintain, keeps_bind, keeps_get, world_look]
  refine keeps_forM sound (fun member _ middle reached => ?_) fun asked first => ?_
  · exact keeps_raise (.refl reached.sound)
  · rw [keeps_bind]
    apply keeps_dropNeighbors first.sound
    intro dropped second
    have kept := first.trans second
    simp only [keeps_bind, keeps_get, world_look]
    refine keeps_forM kept.sound (fun record chosen middle third => ?_) fun added third => ?_
    · rw [keeps_bind]
      have pool := List.mem_of_mem_take chosen
      have eligible := List.mem_mergeSort.mp pool
      have known := kept.sound.node.known (List.mem_of_mem_filter eligible)
      exact keeps_addNeighbor third.sound (known.mono third.grows) fun _ after last => last
    · exact keeps_report (holds _ added (kept.trans third))

end Tracking

end Overlay.Swarm
