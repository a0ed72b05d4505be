import Overlay.Node.State
import Overlay.Proofs.Program.Transport
import Overlay.Proofs.Swarm.World

/-!
Rules for the basic programs of a job in a swarm. Each says what has to hold at the end of a program
for it to be all right; what does not wait changes nothing but what it names.
-/

set_option autoImplicit false

namespace Overlay.Swarm

open Attempt Node Surroundings

variable {timing : Timing} {now : View} {α : Type}

section Instant

theorem keeps_report {event : Event} {post : Unit → View → Prop} (holds : post () now) :
    (world timing).Keeps (Program.report event) post now := by
  refine ⟨trivial, ?_⟩
  rintro ⟨⟩ after rfl
  exact holds

theorem keeps_raise {signal : Signal} {post : Unit → View → Prop} (holds : post () now) :
    (world timing).Keeps (Program.raise signal) post now := by
  refine ⟨trivial, ?_⟩
  rintro ⟨⟩ after rfl
  exact holds

theorem keeps_launch {job : Job} {post : WorkerId → View → Prop}
    (holds : ∀ worker, post worker now) :
    (world timing).Keeps (Program.launch job) post now := by
  refine ⟨trivial, ?_⟩
  rintro worker after rfl
  exact holds worker

theorem keeps_now {post : Instant → View → Prop} (holds : ∀ moment, post moment now) :
    (world timing).Keeps Program.now post now := by
  refine ⟨trivial, ?_⟩
  rintro moment after rfl
  exact holds moment

theorem keeps_limit {activity : Activity} {span : Duration} {outer : Option Limit}
    {post : Except Failure Limit → View → Prop} (holds : ∀ limit, post (.ok limit) now) :
    (world timing).Keeps (limit activity span outer).run post now :=
  keeps_run_limit.mpr (keeps_now fun _ => holds _)

theorem keeps_closing {stream : StreamId} {attempt : Attempt Node α}
    {post : Except Failure α → View → Prop} (keeps : (world timing).Keeps attempt.run post now) :
    (world timing).Keeps (closing stream attempt).run post now := by
  refine keeps_run_closing.mpr (keeps.mono fun result after holds => ⟨trivial, ?_⟩)
  rintro ⟨⟩ later rfl
  exact holds

theorem keeps_reporting {event : Failure → Event} {attempt : Attempt Node α}
    {post : Except Failure α → View → Prop} (keeps : (world timing).Keeps attempt.run post now) :
    (world timing).Keeps (reporting event attempt).run post now := by
  refine keeps_run_reporting.mpr (keeps.mono fun result after holds => ?_)
  cases result with
  | ok value => exact holds
  | error failure => exact keeps_report holds

/-- The record stays the same when the node changes. -/
theorem keeps_modify_same {change : Node → Node} {post : PUnit → View → Prop}
    (sound : ViewSound timing now) (evolves : Evolves timing now (change now.node))
    (same : (change now.node).record = now.node.record)
    (holds : post ⟨⟩ { now with node := change now.node }) :
    (world timing).Keeps (modify change : Program Node PUnit) post now := by
  rw [← leave_same sound.node same] at holds
  exact ⟨evolves, holds⟩

theorem evolves_dice (sound : ViewSound timing now) (dice : Dice) :
    Evolves timing now { now.node with dice } :=
  evolves_frame sound.node rfl rfl rfl rfl rfl rfl sound.node.trackers

theorem keeps_draw {chance : Chance α} {post : α → View → Prop} (sound : ViewSound timing now)
    (holds : ∀ dice, post (chance now.node.dice).1 { now with node := { now.node with dice } }) :
    (world timing).Keeps (draw chance) post now := by
  have same (dice : Dice) :
      now.leave { now.node with dice } = { now with node := { now.node with dice } } :=
    leave_same sound.node rfl
  refine ⟨evolves_dice sound _, ?_⟩
  have drawn := holds (chance now.node.dice).2
  rw [← same] at drawn
  exact drawn

/-- What is drawn does not matter. -/
theorem keeps_drawing {chance : Chance α} {post : α → View → Prop} (sound : ViewSound timing now)
    (holds : ∀ value after, Reaches timing now after → post value after) :
    (world timing).Keeps (draw chance) post now :=
  keeps_draw sound fun dice => holds _ _ ((evolves_dice sound dice).reaches_same sound rfl)

end Instant

section Waiting

theorem keeps_pause {span : Duration} {signals : List Signal} {post : Pausing → View → Prop}
    (sound : ViewSound timing now)
    (holds : ∀ reply after, Reaches timing now after → post reply after) :
    (world timing).Keeps (Program.pause span signals) post now := by
  refine ⟨trivial, ?_⟩
  rintro reply after ⟨between, interferes, rfl⟩
  exact holds reply after (interferes.reaches sound)

variable {stream : StreamId} {link : Link}

theorem keeps_read {count : Nat} {deadline : Option Instant} {post : Reading → View → Prop}
    (sound : ViewSound timing now) (held : now.link = some link) (named : link.name = stream)
    (holds : ∀ reply after peer got, Reaches timing now after → Faces link peer →
      Carries timing after.chronicle peer → (link.got ++ got) <+: peer.sent →
      after.link = some { link with got := link.got ++ got } →
      (∀ content, reply = .bytes content →
        content = got ∧ got.length = count ∧ InTime timing after link peer) → post reply after) :
    (world timing).Keeps (Program.read stream count deadline) post now := by
  refine ⟨⟨link, held, named⟩, ?_⟩
  rintro reply after ⟨between, interferes, holder, peer, got, kept, _, faces, carries, front,
    whole, rfl⟩
  cases kept.symm.trans (interferes.link.trans held)
  have before := interferes.reaches sound
  refine holds reply _ peer got ?_ faces carries front rfl whole
  refine ⟨⟨before.grows, before.id, before.settings, before.isSeeding, before.clock⟩,
    before.sound.node, ?_⟩
  rintro lifetime shared other same
  cases same
  exact before.sound.opened lifetime shared link kept

theorem keeps_receive {count : Nat} {fault : StreamFault} {limit : Limit}
    {post : Except Failure Wire.Bytes → View → Prop} (sound : ViewSound timing now)
    (held : now.link = some link) (named : link.name = stream)
    (arrived : ∀ after peer got, Reaches timing now after → Faces link peer →
      Carries timing after.chronicle peer → (link.got ++ got) <+: peer.sent →
      got.length = count → InTime timing after link peer →
      after.link = some { link with got := link.got ++ got } → post (.ok got) after)
    (missing : ∀ failure after, Reaches timing now after → post (.error failure) after) :
    (world timing).Keeps (receive stream count fault limit).run post now := by
  refine keeps_run_receive.mpr (keeps_read sound held named ?_)
  intro reading after peer got reached faces carries front kept whole
  cases reading with
  | bytes content =>
      obtain ⟨rfl, length, inTime⟩ := whole content rfl
      exact arrived after peer content reached faces carries front length inTime kept
  | ended => exact missing _ after reached
  | expired => exact missing _ after reached

theorem keeps_receiveByte {limit : Limit} {post : Except Failure UInt8 → View → Prop}
    (sound : ViewSound timing now) (held : now.link = some link) (named : link.name = stream)
    (arrived : ∀ byte after got, Reaches timing now after → after.link = some { link with got } →
      post (.ok byte) after)
    (missing : ∀ failure after, Reaches timing now after → post (.error failure) after) :
    (world timing).Keeps (receiveByte stream limit).run post now := by
  refine keeps_run_receiveByte.mpr (keeps_receive sound held named ?_ missing)
  intro between peer got reached _ _ _ _ _ kept
  exact arrived _ between _ reached kept

/-- What a job has to do with once it has written. -/
theorem issue_write {bytes : Wire.Bytes} {deadline : Option Instant} (held : now.link = some link)
    (named : link.name = stream) : now.issue (.write stream bytes deadline) =
      if link.isCallee ∧ link.tag ≠ .vivaldi then now.speak.put link bytes
      else now.put link bytes := by
  simp only [View.issue, held, named, ↓reduceIte]

theorem keeps_send {bytes : Wire.Bytes} {limit : Limit}
    {post : Except Failure Unit → View → Prop} (sound : ViewSound timing now)
    (held : now.link = some link) (named : link.name = stream)
    (carries : ∀ deadline, Carries timing (now.issue (.write stream bytes deadline)).chronicle
      { link with sent := link.sent ++ bytes, stamp := now.node.clock })
    (holds : ∀ result after, Reaches timing now after →
      after.link = some { link with sent := link.sent ++ bytes, stamp := now.node.clock } →
      post result after) :
    (world timing).Keeps (send stream bytes limit).run post now := by
  have written (deadline : Option Instant) : (now.issue (.write stream bytes deadline)).link =
      some { link with sent := link.sent ++ bytes, stamp := now.node.clock } := by
    rw [issue_write held named]
    split <;> rfl
  refine keeps_run_send.mpr ⟨⟨⟨link, held, named⟩, fun other same => ?_⟩, ?_⟩
  · cases (written _).symm.trans same
    exact carries _
  · rintro reply after ⟨between, interferes, rfl⟩
    have issued := issue_reaches sound (.write stream bytes (some limit.deadline))
    have reached := issued.trans (interferes.reaches issued.sound)
    exact holds _ _ reached (interferes.link.trans (written _))

theorem keeps_sendFrame {layout : Wire.Layout α} {value : α} {maximum : Nat} {limit : Limit}
    {post : Except Failure Unit → View → Prop} (sound : ViewSound timing now)
    (held : now.link = some link) (named : link.name = stream) (unused : link.sent = [])
    (carries : ∀ deadline, Wire.Fits layout value →
      Carries timing
        (now.issue (.write stream (Wire.frame layout value) deadline)).chronicle
        { link with sent := Wire.frame layout value, stamp := now.node.clock })
    (holds : ∀ result after sent stamp, Reaches timing now after →
      after.link = some { link with sent, stamp } → post result after) :
    (world timing).Keeps (sendFrame layout stream value maximum limit).run post now := by
  refine keeps_run_sendFrame (fun bytes encoded => ?_)
    fun fault _ => holds _ now link.sent link.stamp (.refl sound) held
  obtain ⟨rfl, fits⟩ := Wire.frame_of_encodeFrame encoded
  refine keeps_send sound held named ?_ ?_
  · intro deadline
    rw [unused, List.nil_append]
    exact carries deadline fits
  · intro result after reached written
    exact holds result after _ _ reached written

theorem keeps_receiveFrame {layout : Wire.Layout α} {maximum : Nat} {limit : Limit}
    {post : Except Failure α → View → Prop} (sound : ViewSound timing now)
    (held : now.link = some link) (named : link.name = stream) (unused : link.got = [])
    (complete : ∀ value after peer bound, Reaches timing now after → Faces link peer →
      Carries timing after.chronicle peer → Wire.IsFrame layout bound peer.sent value →
      InTime timing after link peer →
      (∃ got, after.link = some { link with got }) → post (.ok value) after)
    (incomplete : ∀ failure after, Reaches timing now after → post (.error failure) after) :
    (world timing).Keeps (receiveFrame layout stream maximum limit).run post now := by
  refine keeps_run_frame (fun bytes after => Reaches timing now after ∧
    after.link = some { link with got := bytes } ∧
      (bytes = [] ∨ ∃ peer, Faces link peer ∧ Carries timing after.chronicle peer ∧
        bytes <+: peer.sent ∧ InTime timing after link peer))
    ⟨.refl sound, unused ▸ held, Or.inl rfl⟩ ?_ ?_ ?_
  · rintro bytes middle count fault ⟨reached, holds, _⟩ _
    refine keeps_receive reached.sound holds named ?_ fun failure after further =>
      incomplete failure after (reached.trans further)
    intro after peer content further faces carries front length inTime holds
    exact ⟨length, reached.trans further, holds, Or.inr ⟨peer,
      ⟨faces.tag, faces.isCallee, faces.opened⟩, carries, front, inTime⟩⟩
  · rintro bytes value after ⟨reached, holds, rfl | ⟨peer, faces, carries, front, inTime⟩⟩ frame
    · exact absurd frame Wire.not_isFrame_nil
    · obtain ⟨rest, front⟩ := front
      exact complete value after peer maximum reached faces carries (front ▸ frame.append rest)
        inTime ⟨_, holds⟩
  · rintro bytes failure after ⟨reached, _⟩ _
    exact incomplete failure after reached

theorem keeps_connected {address : SocketAddress} {tag : Wire.ServiceTag} {patience : Duration}
    {limit : Limit} {attempt : StreamId → Attempt Node α}
    {post : Except Failure α → View → Prop} (sound : ViewSound timing now)
    (opened : ∀ link after,
      Reaches timing (now.issue (.connect address tag patience limit.deadline)) after →
      after.link = some link → link.tag = tag → link.isCallee = false →
      link.opened = after.node.clock → link.sent = [] → link.got = [] →
      (world timing).Keeps (attempt link.name).run post after)
    (failed : ∀ failure after, Reaches timing now after → post (.error failure) after) :
    (world timing).Keeps (connected address tag patience limit attempt).run post now := by
  have issued := issue_reaches sound (.connect address tag patience limit.deadline)
  refine keeps_run_connected.mpr ⟨trivial, ?_⟩
  rintro connecting after ⟨between, interferes, delivers⟩
  have before := interferes.reaches issued.sound
  cases connecting with
  | opened name =>
      obtain ⟨link, rfl, tagged, caller, opening, sent, got, rfl⟩ := delivers
      refine keeps_closing (opened link _ ?_ rfl tagged caller opening sent got)
      refine ⟨⟨before.grows, before.id, before.settings, before.isSeeding, before.clock⟩,
        before.sound.node, ?_⟩
      rintro lifetime shared other same
      cases same
      exact opening ▸ Timestamp.le_refl _
  | failed fault =>
      cases delivers
      exact failed _ _ (issued.trans before)
  | expired =>
      cases delivers
      exact failed _ _ (issued.trans before)

end Waiting

end Overlay.Swarm
