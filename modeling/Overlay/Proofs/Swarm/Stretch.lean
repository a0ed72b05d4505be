import Overlay.Proofs.Swarm.Jobs

/-!
What a job does from one wait to the next.

A stretch without a wait changes the node of the job, what is known about its record, and the end of
the stream it holds (`Moves`), and leaves the job standing at a point from which it keeps to the
rules whatever answer it gets (`Stands`).
-/

set_option autoImplicit false

namespace Overlay.Swarm

open Surroundings

variable {timing : Timing} {first second third now after : View} {α : Type}

/-- The records that a peer has advertised, each one published after the one before. -/
def Chained (records : List PeerRecord) : Prop :=
  records.IsChain fun newer older => ∃ coordinate, newer = older.publish coordinate

/-- Every history of a chronicle goes on one by one from where it began. -/
structure Historic (start chronicle : Chronicle) : Prop where
  chained : ∀ id, Chained (chronicle.advertised id)
  first : ∀ id, (chronicle.advertised id).getLast? = (start.advertised id).getLast?

/-- The same end of the same stream. -/
structure SameEnd (before after : Link) : Prop where
  name : after.name = before.name
  peer : after.peer = before.peer
  tag : after.tag = before.tag
  isCallee : after.isCallee = before.isCallee
  opened : after.opened = before.opened

theorem SameEnd.refl (link : Link) : SameEnd link link := ⟨rfl, rfl, rfl, rfl, rfl⟩

theorem SameEnd.trans {first second third : Link} (before : SameEnd first second)
    (after : SameEnd second third) : SameEnd first third :=
  ⟨after.name.trans before.name, after.peer.trans before.peer, after.tag.trans before.tag,
    after.isCallee.trans before.isCallee, after.opened.trans before.opened⟩

theorem SameEnd.faces {link later peer other : Link} (same : SameEnd link later)
    (facing : SameEnd peer other) (faces : Faces link peer) : Faces later other :=
  ⟨by rw [facing.tag, faces.tag, same.tag],
    by rw [facing.isCallee, faces.isCallee, same.isCallee],
    by rw [facing.opened, faces.opened, same.opened]⟩

/-- What a stream carries does not depend on what was read from it. -/
theorem Carries.got {chronicle : Chronicle} {link : Link} (carries : Carries timing chronicle link)
    (got : Wire.Bytes) : Carries timing chronicle { link with got } := by
  apply carries.imp_right
  intro content
  simp only
  split at content
  · exact content
  · obtain ⟨record, answered, rest⟩ := content
    exact ⟨record, ⟨answered.genuine, answered.stamped⟩, rest⟩
  · trivial

/-- What happens from one wait of a job to the next. -/
structure Moves (timing : Timing) (before after : View) : Prop where
  grows : before.chronicle.Grows after.chronicle
  others : ∀ id, id ≠ before.node.record.id →
    after.chronicle.advertised id = before.chronicle.advertised id
  history : ∀ start, Historic start before.chronicle → Historic start after.chronicle
  id : after.node.record.id = before.node.record.id
  settings : after.node.settings = before.node.settings
  isSeeding : after.isSeeding = before.isSeeding
  clock : after.node.clock = before.node.clock
  engines : ∀ algorithm, Spares timing after.chronicle after.node.clock
    (before.node.engine algorithm) (after.node.engine algorithm)
  link : ∀ link, before.link = some link → ∃ later, after.link = some later ∧
    SameEnd link later ∧
      (Carries timing before.chronicle link → Carries timing after.chronicle later)
  unlinked : before.link = none → after.link = none

theorem Dead.early {lifetime : UInt64} {chronicle later : Chronicle} {time : Timestamp}
    {id : PeerId} (dead : Dead lifetime later time id) (grows : chronicle.Grows later) :
    Dead lifetime chronicle time id := by
  intro spoken said
  obtain ⟨last, said, order⟩ := grows.spoken id spoken said
  exact Timestamp.le_trans (Timestamp.plus_le_plus order lifetime) (dead last said)

theorem Spares.mono {chronicle later : Chronicle} {time : Timestamp} {before after : Engine}
    (spares : Spares timing chronicle time before after) (grows : chronicle.Grows later) :
    Spares timing later time before after :=
  fun lifetime shared id dead held => spares lifetime shared id (dead.early grows) held

theorem Moves.refl (view : View) : Moves timing view view :=
  ⟨.refl _, fun _ _ => rfl, fun _ historic => historic, rfl, rfl, rfl, rfl, fun _ => .refl _,
    fun link held => ⟨link, held, .refl link, fun carries => carries⟩, fun free => free⟩

theorem Moves.trans (before : Moves timing first second) (after : Moves timing second third) :
    Moves timing first third where
  grows := before.grows.trans after.grows
  others id other := by
    rw [after.others id (before.id ▸ other), before.others id other]
  history start historic := after.history start (before.history start historic)
  id := after.id.trans before.id
  settings := after.settings.trans before.settings
  isSeeding := after.isSeeding.trans before.isSeeding
  clock := after.clock.trans before.clock
  engines algorithm := by
    have early := (before.engines algorithm).mono after.grows
    rw [← after.clock] at early
    exact early.trans (after.engines algorithm)
  link link held := by
    obtain ⟨middle, held, same, carries⟩ := before.link link held
    obtain ⟨later, held, further, carried⟩ := after.link middle held
    exact ⟨later, held, same.trans further, fun start => carried (carries start)⟩
  unlinked free := after.unlinked (before.unlinked free)

/-- A record that is the same or newly published continues its history. -/
theorem historic_advertise {start chronicle : Chronicle} {record next : PeerRecord}
    (historic : Historic start chronicle)
    (own : (chronicle.advertised record.id).head? = some record)
    (follows : next = record ∨ ∃ coordinate, next = record.publish coordinate) :
    Historic start (chronicle.advertise next) := by
  rcases follows with rfl | ⟨coordinate, rfl⟩
  · rwa [Chronicle.advertise_same own]
  · rw [Chronicle.advertise]
    split
    · exact historic
    · change Historic start { chronicle with
        advertised := Function.update chronicle.advertised record.id
          (record.publish coordinate :: chronicle.advertised record.id) }
      obtain ⟨older, known⟩ := List.head?_eq_some_iff.mp own
      refine ⟨fun id => ?_, fun id => ?_⟩
      · by_cases same : id = record.id
        · subst same
          have chained := historic.chained record.id
          simp only [Function.update_self]
          rw [known] at chained ⊢
          exact List.isChain_cons_cons.mpr ⟨⟨coordinate, rfl⟩, chained⟩
        · simp only [Function.update_of_ne same]
          exact historic.chained id
      · by_cases same : id = record.id
        · subst same
          simp only [Function.update_self]
          rw [← historic.first record.id, known, List.getLast?_cons_cons]
        · simp only [Function.update_of_ne same]
          exact historic.first id

theorem Evolves.moves {state : Node} (evolves : Evolves timing now state)
    (sound : ViewSound timing now) : Moves timing now (now.leave state) := by
  have grows := now.chronicle.advertise_grows state.record
  have reached := evolves.reaches sound
  refine ⟨grows, fun id other => ?_, fun start historic => ?_, reached.id, evolves.settings, rfl,
    evolves.clock, fun algorithm => ?_, fun link held => ?_, fun free => free⟩
  · exact Chronicle.advertise_other (reached.id ▸ other)
  · exact historic_advertise historic sound.node.own evolves.record
  · change Spares timing _ state.clock _ _
    rw [evolves.clock]
    exact (evolves.engines algorithm).mono grows
  · exact ⟨link, held, .refl link, fun carries => carries.mono grows⟩

theorem speak_moves : Moves timing now now.speak := by
  have grows := now.chronicle.speak_grows now.node.record.id now.node.clock
  refine ⟨grows, fun _ _ => rfl, fun _ historic => ⟨historic.chained, historic.first⟩, rfl, rfl,
    rfl, rfl, fun _ => .refl _, fun link held => ?_, fun free => free⟩
  exact ⟨link, held, .refl link, fun carries => carries.mono grows⟩

theorem read_moves {link : Link} (held : now.link = some link) (got : Wire.Bytes) :
    Moves timing now { now with link := some { link with got } } := by
  refine ⟨.refl _, fun _ _ => rfl, fun _ historic => historic, rfl, rfl, rfl, rfl,
    fun _ => .refl _, fun other also => ?_, fun free => ?_⟩
  · cases held.symm.trans also
    exact ⟨_, rfl, ⟨rfl, rfl, rfl, rfl, rfl⟩, fun carries => carries.got got⟩
  · cases held.symm.trans free

/-- Beginning to wait writes nothing that the stream may not carry. -/
theorem issue_moves {request : Request} (admitted : Admitted timing now request) :
    Moves timing now (now.issue request) := by
  cases request with
  | connect address tag patience deadline =>
      cases tag with
      | gossip => exact speak_moves
      | vivaldi => exact .refl now
      | nodeInfo => exact .refl now
  | write stream bytes deadline =>
      obtain ⟨⟨link, held, named⟩, carries⟩ := admitted
      have put (view : View) (same : view.link = some link)
          (written : now.issue (.write stream bytes deadline) = view.put link bytes)
          (moves : Moves timing now view) :
          Moves timing now (now.issue (.write stream bytes deadline)) := by
        rw [written] at carries ⊢
        refine ⟨moves.grows, moves.others, moves.history, moves.id, moves.settings, moves.isSeeding,
          moves.clock, moves.engines, fun other also => ?_, fun free => ?_⟩
        · cases held.symm.trans also
          exact ⟨_, rfl, ⟨rfl, rfl, rfl, rfl, rfl⟩, fun _ => carries _ rfl⟩
        · cases held.symm.trans free
      by_cases speaks : link.isCallee ∧ link.tag ≠ .vivaldi
      · exact put now.speak held (by rw [issue_write held named, if_pos speaks]) speak_moves
      · exact put now held (by rw [issue_write held named, if_neg speaks]) (.refl now)
  | _ => exact .refl now

/-- A program that is done as it should be, or that waits and keeps to the rules whatever it
gets. -/
def Stands (timing : Timing) (post : α → View → Prop) : Program Node α → View → Prop
  | .done value, now => post value now
  | .ask request next, now => ∀ between, Interferes timing now between → ∀ reply after,
    Delivers timing between request reply after → (world timing).Keeps (next reply) post after
  | _, _ => False

theorem Stands.interferes {post : α → View → Prop} {request : Request}
    {next : request.Reply → Program Node α}
    (stands : Stands timing post (.ask request next) now)
    (interferes : Interferes timing now after) :
    Stands timing post (.ask request next) after :=
  fun between further => stands between (interferes.trans further)

/-- Keeping to the rules lasts until the next wait. -/
theorem Settles.sound {program rest : Program Node α} {post : α → View → Prop}
    (settles : Settles program now rest after) (sound : ViewSound timing now)
    (keeps : (world timing).Keeps program post now) :
    ViewSound timing after ∧ Moves timing now after ∧ Stands timing post rest after := by
  induction settles with
  | done value now => exact ⟨sound, .refl now, keeps⟩
  | wait request next now waiting =>
      refine ⟨(issue_reaches sound request).sound, issue_moves keeps.1, ?_⟩
      intro between interferes reply after delivers
      refine keeps.2 reply after ?_
      cases request with
      | connect | read | write | pause | join => exact ⟨between, interferes, delivers⟩
      | _ => cases waiting
  | get _ ih => exact ih sound keeps
  | put _ ih =>
      have moves := keeps.1.moves sound
      obtain ⟨sound, further, stands⟩ := ih (keeps.1.reaches sound).sound keeps.2
      exact ⟨sound, moves.trans further, stands⟩
  | @ask request next rest now after reply instant _ ih =>
      refine ih sound (keeps.2 reply now ?_)
      cases request with
      | connect | read | write | pause | join => exact absurd rfl instant
      | _ => rfl

end Overlay.Swarm
