import Overlay.Proofs.Swarm.Neighbors

/-!
The turns of all jobs in a swarm.
-/

set_option autoImplicit false

namespace Overlay.Swarm

open Attempt Node Surroundings

variable {timing : Timing} {now : View}

/-- What a job has to find when it begins a turn. -/
def Ready (view : View) : Job → Prop
  | .serve tag stream => ∃ link, view.link = some link ∧ link.name = stream ∧ link.tag = tag ∧
    link.isCallee = true ∧ link.sent = [] ∧ link.got = []
  | .script .. | .scriptedReply .. => False
  | job => seeds job → view.isSeeding

/-- How a turn ends. -/
def Ends (timing : Timing) (before : View) (next : Option Job) (after : View) : Prop :=
  Reaches timing before after ∧
    ∀ job, next = some job → isOwn job ∧ (seeds job → after.isSeeding)

theorem ends_none {after : View} (reached : Reaches timing now after) :
    Ends timing now none after := ⟨reached, nofun⟩

theorem ends_some {after : View} {job : Job} (reached : Reaches timing now after)
    (own : isOwn job) (seeding : seeds job → now.isSeeding) : Ends timing now (some job) after := by
  refine ⟨reached, fun other same => ?_⟩
  cases same
  exact ⟨own, fun seeds => reached.isSeeding.trans (seeding seeds)⟩

/-- A job that looks for no peers from outside may follow anywhere. -/
theorem ends_quiet {after : View} {job : Job} (reached : Reaches timing now after)
    (own : isOwn job) (quiet : ¬ seeds job) : Ends timing now (some job) after :=
  ends_some reached own fun seeding => absurd seeding quiet

theorem keeps_isStopped {delay : Duration} {group : Nat} {post : Bool → View → Prop}
    (sound : ViewSound timing now)
    (holds : ∀ stopped after, Reaches timing now after → post stopped after) :
    (world timing).Keeps (isStopped delay group) post now := by
  rw [isStopped, keeps_bind]
  apply keeps_pause sound
  intro reply after reached
  cases reply with
  | elapsed => exact holds false after reached
  | heard signal => exact holds true after reached

theorem keeps_gossipTurn {algorithm : Algorithm} {group : Nat} (sound : ViewSound timing now)
    (seeding : now.isSeeding) :
    (world timing).Keeps (gossipTurn algorithm group) (Ends timing now) now := by
  simp only [gossipTurn, keeps_bind, keeps_get]
  apply keeps_drawing sound
  intro delay drawn first
  rw [keeps_bind]
  apply keeps_isStopped first.sound
  intro stopped paused second
  have reached := first.trans second
  refine keeps_ite (fun _ => ?_) fun _ => ?_
  · rw [keeps_bind]
    exact keeps_report (ends_none reached)
  · rw [keeps_bind]
    refine keeps_reportedRound reached.sound (reached.isSeeding.trans seeding) ?_
    intro after third
    exact ends_some (reached.trans third) rfl fun _ => seeding

theorem keeps_refineWith {peer : PeerRecord} {post : Unit → View → Prop}
    (sound : ViewSound timing now) (holds : ∀ after, Reaches timing now after → post () after) :
    (world timing).Keeps (refineWith peer) post now := by
  simp only [refineWith, keeps_bind, keeps_get]
  refine keeps_ite (fun _ => holds now (.refl sound)) fun _ => ?_
  rw [keeps_bind]
  apply keeps_ping sound
  intro result after reached
  cases result with
  | ok sample =>
      simp only [keeps_bind, keeps_get]
      exact keeps_report (holds after reached)
  | error failure => exact keeps_report (holds after reached)

theorem keeps_refinementTurn {group : Nat} (sound : ViewSound timing now) :
    (world timing).Keeps (refinementTurn group) (Ends timing now) now := by
  simp only [refinementTurn, keeps_bind, keeps_get]
  apply keeps_drawing sound
  intro delay drawn first
  rw [keeps_bind]
  apply keeps_isStopped first.sound
  intro stopped paused second
  have reached := first.trans second
  refine keeps_ite (fun _ => ?_) fun _ => ?_
  · rw [keeps_bind]
    exact keeps_report (ends_none reached)
  · simp only [keeps_bind, keeps_get]
    apply keeps_drawing reached.sound
    intro neighbor tossed third
    simp only [keeps_bind, keeps_get]
    apply keeps_drawing third.sound
    intro other chosen fourth
    have whole := reached.trans (third.trans fourth)
    rw [keeps_bind]
    refine keeps_forM whole.sound (fun peer _ middle further => ?_) fun after further => ?_
    · exact keeps_refineWith further.sound fun after last => last
    · exact ends_quiet (whole.trans further) rfl Bool.false_ne_true

theorem keeps_maintenanceTurn {group : Nat} (sound : ViewSound timing now) :
    (world timing).Keeps (maintenanceTurn group) (Ends timing now) now := by
  simp only [maintenanceTurn, keeps_bind, keeps_get]
  apply keeps_drawing sound
  intro delay drawn first
  rw [keeps_bind]
  apply keeps_isStopped first.sound
  intro stopped paused second
  have reached := first.trans second
  refine keeps_ite (fun _ => ?_) fun _ => ?_
  · simp only [keeps_bind]
    apply keeps_dropAllNeighbors reached.sound
    intro after third
    exact keeps_report (ends_none (reached.trans third))
  · rw [keeps_bind]
    apply keeps_maintain reached.sound
    intro _ after third
    exact ends_quiet (reached.trans third) rfl Bool.false_ne_true

theorem keeps_reporterTurn {interval : Duration} {group : Nat} (sound : ViewSound timing now) :
    (world timing).Keeps (reporterTurn interval group) (Ends timing now) now := by
  simp only [reporterTurn, keeps_bind]
  apply keeps_isStopped sound
  intro stopped paused reached
  refine keeps_ite (fun _ => ?_) fun _ => ?_
  · rw [keeps_bind]
    exact keeps_report (ends_none reached)
  · simp only [keeps_bind]
    have evolves : Evolves timing paused { paused.node with
        metrics := paused.node.metrics.record paused.node.snapshot } :=
      evolves_frame reached.sound.node rfl rfl rfl rfl rfl rfl reached.sound.node.trackers
    refine keeps_modify_same reached.sound evolves rfl (keeps_report ?_)
    have further := evolves.reaches_same reached.sound rfl
    exact ends_quiet (reached.trans further) rfl Bool.false_ne_true

theorem keeps_listeningTurn {group : Nat} (sound : ViewSound timing now) :
    (world timing).Keeps (listeningTurn group) (Ends timing now) now := by
  simp only [listeningTurn, keeps_bind]
  apply keeps_isStopped sound
  intro stopped paused reached
  refine keeps_ite (fun _ => ?_) fun _ => ends_quiet reached rfl Bool.false_ne_true
  rw [keeps_bind]
  exact keeps_report (ends_none reached)

theorem keeps_serve {tag : Wire.ServiceTag} {stream : StreamId} (sound : ViewSound timing now)
    (ready : Ready now (.serve tag stream)) :
    (world timing).Keeps (serve tag stream) (fun _ after => Reaches timing now after) now := by
  obtain ⟨link, held, named, tagged, callee, sent, got⟩ := ready
  rw [serve, keeps_bind]
  refine keeps_closing ?_
  cases tag with
  | gossip =>
      exact keeps_serveGossip sound held named tagged callee sent got fun _ after reached => reached
  | vivaldi => exact keeps_serveEcho sound held named tagged fun _ after reached => reached
  | nodeInfo =>
      exact keeps_serveRecord sound held named tagged callee sent fun _ after reached => reached

/-- Whatever a node runs in a swarm keeps to the rules. -/
theorem keeps_turn {job : Job} (sound : ViewSound timing now) (ready : Ready now job) :
    (world timing).Keeps (turn job) (Ends timing now) now := by
  cases job with
  | gossip algorithm group =>
      rw [turn, keeps_bind]
      exact keeps_report (keeps_gossipTurn sound (ready rfl))
  | gossipRound algorithm group => exact keeps_gossipTurn sound (ready rfl)
  | refinement group => exact keeps_refinementTurn sound
  | maintenance group => exact keeps_maintenanceTurn sound
  | reporter interval group => exact keeps_reporterTurn sound
  | acceptor address group =>
      rw [turn, keeps_bind]
      exact keeps_report (keeps_listeningTurn sound)
  | listening group => exact keeps_listeningTurn sound
  | tracker serial =>
      rw [turn, keeps_bind]
      apply keeps_trackerTurn sound
      intro continues after reached
      cases continues with
      | false => exact ends_none reached
      | true => exact ends_quiet reached rfl Bool.false_ne_true
  | serve tag stream =>
      rw [turn, keeps_bind]
      exact (keeps_serve sound ready).mono fun _ after reached => ends_none reached
  | script | scriptedReply => exact ready.elim

end Overlay.Swarm
