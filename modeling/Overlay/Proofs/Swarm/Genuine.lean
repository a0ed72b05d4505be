import Overlay.Proofs.Engine
import Overlay.Proofs.Peer
import Overlay.Proofs.Swarm.Basic
import Overlay.Proofs.Wire.Frame

/-!
Records and copies that can be traced to their origin.

A record is genuine if its peer has advertised it, apart from a flow and a scope that the wire does
not carry. Where all nodes share a clock, a copy in a primary cache or in a payload must not outlast
what its peer said last by more than the common lifetime. Both properties outlive everything that
happens later (`Chronicle.Grows`).
-/

set_option autoImplicit false

namespace Overlay

namespace Swarm

/-- More has been seen. -/
structure Chronicle.Grows (before after : Chronicle) : Prop where
  advertised : ∀ id, before.advertised id <:+ after.advertised id
  spoken : ∀ id earlier, before.spoken id = some earlier →
    ∃ later, after.spoken id = some later ∧ earlier ≤ later

namespace Chronicle

variable {chronicle first second third : Chronicle}

theorem Grows.refl (chronicle : Chronicle) : chronicle.Grows chronicle :=
  ⟨fun _ => List.suffix_refl _, fun _ time said => ⟨time, said, time.le_refl⟩⟩

theorem Grows.trans (before : first.Grows second) (after : second.Grows third) :
    first.Grows third where
  advertised id := (before.advertised id).trans (after.advertised id)
  spoken id earlier said := by
    obtain ⟨middle, said, order⟩ := before.spoken id earlier said
    obtain ⟨later, said, further⟩ := after.spoken id middle said
    exact ⟨later, said, Timestamp.le_trans order further⟩

theorem advertise_grows (chronicle : Chronicle) (record : PeerRecord) :
    chronicle.Grows (chronicle.advertise record) := by
  rw [advertise]
  split
  · exact .refl chronicle
  · refine ⟨fun id => ?_, fun id time said => ⟨time, said, time.le_refl⟩⟩
    by_cases own : id = record.id
    · subst own
      simp only [Function.update_self]
      exact List.suffix_cons record _
    · simp only [Function.update_of_ne own]
      exact List.suffix_refl _

theorem advertise_other {record : PeerRecord} {id : PeerId} (other : id ≠ record.id) :
    (chronicle.advertise record).advertised id = chronicle.advertised id := by
  rw [advertise]
  split
  · rfl
  · exact Function.update_of_ne other _ _

theorem head?_advertise (chronicle : Chronicle) (record : PeerRecord) :
    ((chronicle.advertise record).advertised record.id).head? = some record := by
  rw [advertise]
  split
  · next same => exact same
  · simp only [Function.update_self, List.head?_cons]

theorem advertise_same {record : PeerRecord}
    (same : (chronicle.advertised record.id).head? = some record) :
    chronicle.advertise record = chronicle := if_pos same

theorem speak_grows (chronicle : Chronicle) (id : PeerId) (now : Timestamp) :
    chronicle.Grows (chronicle.speak id now) := by
  refine ⟨fun _ => List.suffix_refl _, fun other time said => ?_⟩
  by_cases own : other = id
  · subst own
    simp only [speak, Function.update_self, said]
    split
    · next order => exact ⟨now, rfl, order⟩
    · exact ⟨time, rfl, time.le_refl⟩
  · simp only [speak, Function.update_of_ne own]
    exact ⟨time, said, time.le_refl⟩

theorem spoken_speak (chronicle : Chronicle) (id : PeerId) (now : Timestamp) :
    ∃ later, (chronicle.speak id now).spoken id = some later ∧ now ≤ later := by
  simp only [speak, Function.update_self]
  cases chronicle.spoken id with
  | none => exact ⟨now, rfl, now.le_refl⟩
  | some before =>
      simp only
      split
      · exact ⟨now, rfl, now.le_refl⟩
      · next order => exact ⟨before, rfl, Timestamp.le_of_not_le order⟩

end Chronicle

section Predicates

variable (timing : Timing) (chronicle : Chronicle)

/-- The peer that a record names has advertised it. -/
def Genuine (record : PeerRecord) : Prop :=
  ∃ told ∈ chronicle.advertised record.id, record = told ∨ record = told.unscoped

/-- A copy does not outlast what its peer said last. -/
def Dated (id : PeerId) (expiresAt : Timestamp) : Prop :=
  ∀ lifetime, timing = .shared lifetime →
    ∃ spoken, chronicle.spoken id = some spoken ∧ expiresAt ≤ spoken.plus lifetime

/-- A copy of a genuine record that does not outlast what its peer said last. -/
structure Traced (copy : Entry) : Prop where
  genuine : Genuine chronicle copy.record
  dated : Dated timing chronicle copy.id copy.expiresAt

/-- A message that tells of nothing but genuine records and traced copies. -/
structure Truthful (message : Message) : Prop where
  sender : Genuine chronicle message.sender
  receiver : Genuine chronicle message.receiver
  entries : ∀ copy ∈ message.entries, Traced timing chronicle copy

/-- The answer to a question for a record: the record of a peer that has spoken when it was
written. -/
structure Answered (link : Link) (record : PeerRecord) : Prop where
  genuine : Genuine chronicle record
  stamped : ∀ lifetime, timing = .shared lifetime →
    ∃ spoken, chronicle.spoken record.id = some spoken ∧ link.stamp ≤ spoken ∧
      link.opened ≤ link.stamp

/-- What may have been written into an end of a stream: one message of gossip, or one record. -/
def Carries (link : Link) : Prop :=
  link.sent = [] ∨ match link.tag, link.isCallee with
    | .gossip, _ => ∃ message, Truthful timing chronicle message ∧
      Wire.Fits Wire.Layout.message message ∧ link.sent = Wire.frame Wire.Layout.message message
    | .nodeInfo, true => ∃ record, Answered timing chronicle link record ∧
      Wire.Fits Wire.Layout.peerRecord record ∧
      link.sent = Wire.frame Wire.Layout.peerRecord record
    | _, _ => True

/-- An engine with traced copies in its cache, and copies of genuine records beside it. -/
structure EngineSound (engine : Engine) : Prop where
  cache : ∀ copy ∈ engine.cache.entries, Traced timing chronicle copy
  fallback : ∀ pool, engine.fallback = some pool →
    ∀ copy ∈ pool.entries, Genuine chronicle copy.record
  lifetime : ∀ lifetime, timing = .shared lifetime → engine.settings.entryLifetime = lifetime

/-- A node that knows nothing but what can be traced, and whose record was seen last. -/
structure NodeSound (node : Node) : Prop where
  own : (chronicle.advertised node.record.id).head? = some node.record
  bootstrap : node.bootstrap = .none ∨ ∃ addresses, node.bootstrap = .addresses addresses
  membership : node.membership = none
  lifetime : ∀ lifetime, timing = .shared lifetime → node.settings.entryLifetime = lifetime
  engines : ∀ engine ∈ node.engines, EngineSound timing chronicle engine
  trackers : ∀ tracker ∈ node.trackers, Genuine chronicle tracker.record

end Predicates

variable {timing : Timing} {chronicle later : Chronicle}

@[simp] theorem unscoped_unscoped (record : PeerRecord) :
    record.unscoped.unscoped = record.unscoped := by
  cases record with
  | mk id address cluster epoch version coordinate => cases address <;> rfl

theorem Genuine.unscoped {record : PeerRecord} (genuine : Genuine chronicle record) :
    Genuine chronicle record.unscoped := by
  obtain ⟨told, advertised, rfl | rfl⟩ := genuine
  · exact ⟨record, advertised, Or.inr rfl⟩
  · exact ⟨told, advertised, Or.inr (unscoped_unscoped told)⟩

theorem Genuine.mono {record : PeerRecord} (genuine : Genuine chronicle record)
    (grows : chronicle.Grows later) : Genuine later record := by
  obtain ⟨told, advertised, same⟩ := genuine
  exact ⟨told, (grows.advertised record.id).subset advertised, same⟩

theorem Dated.mono {id : PeerId} {expiresAt : Timestamp}
    (dated : Dated timing chronicle id expiresAt) (grows : chronicle.Grows later) :
    Dated timing later id expiresAt := by
  intro lifetime shared
  obtain ⟨spoken, said, bound⟩ := dated lifetime shared
  obtain ⟨after, said, order⟩ := grows.spoken id spoken said
  exact ⟨after, said, Timestamp.le_trans bound (Timestamp.plus_le_plus order lifetime)⟩

theorem Traced.mono {copy : Entry} (traced : Traced timing chronicle copy)
    (grows : chronicle.Grows later) : Traced timing later copy :=
  ⟨traced.genuine.mono grows, traced.dated.mono grows⟩

theorem Traced.unscoped {copy : Entry} (traced : Traced timing chronicle copy) :
    Traced timing chronicle copy.unscoped := ⟨traced.genuine.unscoped, traced.dated⟩

theorem Traced.older {copy : Entry} (traced : Traced timing chronicle copy) :
    Traced timing chronicle copy.older := ⟨traced.genuine, traced.dated⟩

theorem Truthful.mono {message : Message} (truthful : Truthful timing chronicle message)
    (grows : chronicle.Grows later) : Truthful timing later message :=
  ⟨truthful.sender.mono grows, truthful.receiver.mono grows,
    fun copy told => (truthful.entries copy told).mono grows⟩

theorem Truthful.unscoped {message : Message} (truthful : Truthful timing chronicle message) :
    Truthful timing chronicle message.unscoped := by
  refine ⟨truthful.sender.unscoped, truthful.receiver.unscoped, fun copy told => ?_⟩
  obtain ⟨original, member, rfl⟩ := List.mem_map.mp told
  exact (truthful.entries original member).unscoped

theorem Answered.mono {link : Link} {record : PeerRecord}
    (answered : Answered timing chronicle link record) (grows : chronicle.Grows later) :
    Answered timing later link record := by
  refine ⟨answered.genuine.mono grows, fun lifetime shared => ?_⟩
  obtain ⟨spoken, said, stamped, opened⟩ := answered.stamped lifetime shared
  obtain ⟨after, said, order⟩ := grows.spoken record.id spoken said
  exact ⟨after, said, Timestamp.le_trans stamped order, opened⟩

theorem Carries.mono {link : Link} (carries : Carries timing chronicle link)
    (grows : chronicle.Grows later) : Carries timing later link := by
  apply carries.imp_right
  intro content
  split at content
  · obtain ⟨message, truthful, rest⟩ := content
    exact ⟨message, truthful.mono grows, rest⟩
  · obtain ⟨record, answered, rest⟩ := content
    exact ⟨record, answered.mono grows, rest⟩
  · exact trivial

theorem EngineSound.mono {engine : Engine} (sound : EngineSound timing chronicle engine)
    (grows : chronicle.Grows later) : EngineSound timing later engine :=
  ⟨fun copy held => (sound.cache copy held).mono grows,
    fun pool kept copy held => (sound.fallback pool kept copy held).mono grows, sound.lifetime⟩

/-- Whatever others do, a node stays sound. -/
theorem NodeSound.mono {node : Node} (sound : NodeSound timing chronicle node)
    (grows : chronicle.Grows later)
    (own : later.advertised node.record.id = chronicle.advertised node.record.id) :
    NodeSound timing later node where
  own := by rw [own, sound.own]
  bootstrap := sound.bootstrap
  membership := sound.membership
  lifetime := sound.lifetime
  engines engine member := (sound.engines engine member).mono grows
  trackers tracker member := (sound.trackers tracker member).mono grows

end Swarm

end Overlay
