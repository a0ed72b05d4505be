import Overlay.Proofs.Program.Run
import Overlay.Proofs.Swarm.Genuine

/-!
The world of one job in a swarm.

While a job waits, others change its node and the chronicle, but keep both sound (`Interferes`). In
turn, whatever the job leaves behind has to be sound (`Evolves`), and it must neither bring a peer
back that has been silent for too long nor keep one through a merge (`Spares`).
-/

set_option autoImplicit false

namespace Overlay.Swarm

open PeerCache Surroundings

/-- A peer has not spoken for as long as copies are kept. -/
def Dead (lifetime : UInt64) (chronicle : Chronicle) (now : Timestamp) (id : PeerId) : Prop :=
  ∀ spoken, chronicle.spoken id = some spoken → spoken.plus lifetime ≤ now

/-- A dead peer in the cache of an engine has been there before, and nothing was merged since. -/
def Spares (timing : Timing) (chronicle : Chronicle) (now : Timestamp) (before after : Engine) :
    Prop :=
  ∀ lifetime, timing = .shared lifetime → ∀ id, Dead lifetime chronicle now id →
    id ∈ ids after.cache.entries →
      id ∈ ids before.cache.entries ∧ after.merges = before.merges

theorem Spares.refl {timing : Timing} {chronicle : Chronicle} {now : Timestamp} (engine : Engine) :
    Spares timing chronicle now engine engine :=
  fun _ _ _ _ held => ⟨held, rfl⟩

theorem Spares.trans {timing : Timing} {chronicle : Chronicle} {now : Timestamp}
    {first second third : Engine} (before : Spares timing chronicle now first second)
    (after : Spares timing chronicle now second third) :
    Spares timing chronicle now first third := by
  intro lifetime shared id dead held
  obtain ⟨middle, same⟩ := after lifetime shared id dead held
  obtain ⟨early, unmerged⟩ := before lifetime shared id dead middle
  exact ⟨early, same.trans unmerged⟩

/-- A state of its node that a job may leave behind. -/
structure Evolves (timing : Timing) (view : View) (state : Node) : Prop where
  sound : NodeSound timing (view.chronicle.advertise state.record) state
  settings : state.settings = view.node.settings
  clock : state.clock = view.node.clock
  record : state.record = view.node.record ∨
    ∃ coordinate, state.record = view.node.record.publish coordinate
  engines : ∀ algorithm, Spares timing view.chronicle view.node.clock
    (view.node.engine algorithm) (state.engine algorithm)

/-- What a job relies on whenever it goes on. -/
structure ViewSound (timing : Timing) (view : View) : Prop where
  node : NodeSound timing view.chronicle view.node
  opened : ∀ lifetime, timing = .shared lifetime → ∀ link, view.link = some link →
    link.opened ≤ view.node.clock

/-- What has happened to the node of a job, whoever did it. -/
structure Follows (timing : Timing) (before after : View) : Prop where
  grows : before.chronicle.Grows after.chronicle
  id : after.node.record.id = before.node.record.id
  settings : after.node.settings = before.node.settings
  isSeeding : after.isSeeding = before.isSeeding
  clock : ∀ lifetime, timing = .shared lifetime → before.node.clock ≤ after.node.clock

/-- What others may do while a job waits. -/
structure Interferes (timing : Timing) (before after : View) : Prop extends
    Follows timing before after where
  sound : NodeSound timing after.chronicle after.node
  link : after.link = before.link

/-- Where a job may have got to. -/
structure Reaches (timing : Timing) (before after : View) : Prop extends
    Follows timing before after where
  sound : ViewSound timing after

variable {timing : Timing} {now first second third : View}

theorem Follows.refl (view : View) : Follows timing view view :=
  ⟨.refl _, rfl, rfl, rfl, fun _ _ => Timestamp.le_refl _⟩

theorem Follows.trans (before : Follows timing first second)
    (after : Follows timing second third) : Follows timing first third :=
  ⟨before.grows.trans after.grows, after.id.trans before.id,
    after.settings.trans before.settings, after.isSeeding.trans before.isSeeding,
    fun lifetime shared =>
      Timestamp.le_trans (before.clock lifetime shared) (after.clock lifetime shared)⟩

/-- Others may leave everything as it is. -/
theorem Interferes.refl (sound : ViewSound timing now) : Interferes timing now now :=
  ⟨.refl now, sound.node, rfl⟩

theorem Interferes.trans (before : Interferes timing first second)
    (after : Interferes timing second third) : Interferes timing first third :=
  ⟨before.toFollows.trans after.toFollows, after.sound, after.link.trans before.link⟩

theorem Reaches.refl (sound : ViewSound timing now) : Reaches timing now now := ⟨.refl now, sound⟩

theorem Reaches.trans (before : Reaches timing first second)
    (after : Reaches timing second third) : Reaches timing first third :=
  ⟨before.toFollows.trans after.toFollows, after.sound⟩

theorem Interferes.reaches (interferes : Interferes timing first second)
    (sound : ViewSound timing first) : Reaches timing first second := by
  refine ⟨interferes.toFollows, interferes.sound, fun lifetime shared link held => ?_⟩
  rw [interferes.link] at held
  exact Timestamp.le_trans (sound.opened lifetime shared link held)
    (interferes.clock lifetime shared)

/-- The requests that a job may make: it works on the stream it holds, and writes nothing else than
what that stream may carry. -/
def Admitted (timing : Timing) (view : View) : Request → Prop
  | .read stream _ _ => ∃ link, view.link = some link ∧ link.name = stream
  | .write stream bytes deadline => (∃ link, view.link = some link ∧ link.name = stream) ∧
    ∀ link, (view.issue (.write stream bytes deadline)).link = some link →
      Carries timing (view.issue (.write stream bytes deadline)).chronicle link
  | _ => True

/-- The other end of a stream, as far as it can be told from the one end. -/
structure Faces (link peer : Link) : Prop where
  tag : peer.tag = link.tag
  isCallee : peer.isCallee = !link.isCallee
  opened : peer.opened = link.opened

/-- What a job gets when it has waited. -/
def Delivers (timing : Timing) (now : View) : (request : Request) → request.Reply → View → Prop
  | .connect _ tag _ _, .opened name, after => ∃ link : Link, link.name = name ∧ link.tag = tag ∧
    link.isCallee = false ∧ link.opened = now.node.clock ∧ link.sent = [] ∧ link.got = [] ∧
    after = { now with link := some link }
  | .connect .., _, after => after = now
  | .read stream count _, reply, after => ∃ link peer got,
    now.link = some link ∧ link.name = stream ∧ Faces link peer ∧
    Carries timing now.chronicle peer ∧ (link.got ++ got) <+: peer.sent ∧
    (∀ content, reply = .bytes content →
      content = got ∧ got.length = count ∧ InTime timing now link peer) ∧
    after = { now with link := some { link with got := link.got ++ got } }
  | .write .., _, after => after = now
  | .pause .., _, after => after = now
  | .join _, _, after => after = now
  | _, _, _ => False

/-- The answers that a job may get. -/
def Replies (timing : Timing) :
    (request : Request) → View → request.Reply → View → Prop
  | .moment, now, _, after => after = now
  | .finish _, now, _, after => after = now
  | .close _, now, _, after => after = now
  | .raise _, now, _, after => after = now
  | .launch _, now, _, after => after = now
  | .report _, now, _, after => after = now
  | request, now, reply, after => ∃ between, Interferes timing (now.issue request) between ∧
    Delivers timing between request reply after

/-- The world of a job. -/
def world (timing : Timing) : Surroundings Node View where
  look := View.node
  leave := View.leave
  Answers := Replies timing
  Accepts state view := Evolves timing view state
  Admits request view := Admitted timing view request

@[simp] theorem world_look : (world timing).look now = now.node := rfl

/-- Nobody else sees that a state was left in which the record is the same. -/
theorem leave_same {state : Node} (sound : NodeSound timing now.chronicle now.node)
    (same : state.record = now.node.record) : now.leave state = { now with node := state } := by
  rw [View.leave, same, Chronicle.advertise_same sound.own]

theorem Evolves.reaches {state : Node} (evolves : Evolves timing now state)
    (sound : ViewSound timing now) : Reaches timing now (now.leave state) := by
  refine ⟨⟨Chronicle.advertise_grows _ _, ?_, evolves.settings, rfl, fun _ _ => ?_⟩,
    evolves.sound, fun lifetime shared link held => ?_⟩
  · change state.record.id = now.node.record.id
    rcases evolves.record with same | ⟨coordinate, published⟩
    · rw [same]
    · rw [published]
      rfl
  · exact evolves.clock ▸ Timestamp.le_refl _
  · exact evolves.clock ▸ sound.opened lifetime shared link held

theorem Evolves.reaches_same {state : Node} (evolves : Evolves timing now state)
    (sound : ViewSound timing now) (same : state.record = now.node.record) :
    Reaches timing now { now with node := state } := by
  rw [← leave_same sound.node same]
  exact evolves.reaches sound

theorem speak_reaches (sound : ViewSound timing now) : Reaches timing now now.speak := by
  have grows := now.chronicle.speak_grows now.node.record.id now.node.clock
  refine ⟨⟨grows, rfl, rfl, rfl, fun _ _ => Timestamp.le_refl _⟩, ?_, sound.opened⟩
  exact sound.node.mono grows rfl

theorem put_reaches (sound : ViewSound timing now) {link : Link} (held : now.link = some link)
    (bytes : Wire.Bytes) : Reaches timing now (now.put link bytes) := by
  refine ⟨⟨.refl _, rfl, rfl, rfl, fun _ _ => Timestamp.le_refl _⟩, sound.node, ?_⟩
  rintro lifetime shared other same
  cases same
  exact sound.opened lifetime shared link held

/-- What happens when a job begins to wait. -/
theorem issue_reaches (sound : ViewSound timing now) (request : Request) :
    Reaches timing now (now.issue request) := by
  cases request with
  | connect address tag patience deadline =>
      cases tag with
      | gossip => exact speak_reaches sound
      | vivaldi => exact .refl sound
      | nodeInfo => exact .refl sound
  | write stream bytes deadline =>
      cases held : now.link with
      | none =>
          simp only [View.issue, held]
          exact .refl sound
      | some link =>
          simp only [View.issue, held]
          split
          · split
            · have spoken := speak_reaches sound
              exact spoken.trans (put_reaches spoken.sound held bytes)
            · exact put_reaches sound held bytes
          · exact .refl sound
  | _ => exact .refl sound

/-- A change that concerns neither the record nor what is known of others. -/
theorem evolves_frame {state : Node} (sound : NodeSound timing now.chronicle now.node)
    (settings : state.settings = now.node.settings) (clock : state.clock = now.node.clock)
    (record : state.record = now.node.record) (bootstrap : state.bootstrap = now.node.bootstrap)
    (membership : state.membership = now.node.membership)
    (engines : state.engines = now.node.engines)
    (trackers : ∀ tracker ∈ state.trackers, Genuine now.chronicle tracker.record) :
    Evolves timing now state where
  sound := by
    rw [record, Chronicle.advertise_same sound.own]
    exact ⟨record ▸ sound.own, bootstrap ▸ sound.bootstrap, membership ▸ sound.membership,
      settings ▸ sound.lifetime, engines ▸ sound.engines, trackers⟩
  settings := settings
  clock := clock
  record := Or.inl record
  engines algorithm := by
    have same : state.engine algorithm = now.node.engine algorithm := by
      rw [Node.engine, Node.engine, engines, settings, record, clock]
    rw [same]
    exact .refl _

end Overlay.Swarm
