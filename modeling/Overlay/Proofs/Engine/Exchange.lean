import Overlay.Proofs.Engine.Life
import Overlay.Proofs.PeerCache.Join

/-!
What an exchange brings to an engine.

A message tells of its sender and of peers that the sender's engine holds. Where nothing is expired
and there is room, whoever takes a message in joins it with what it holds (`answer_joins`,
`accept_joins`). A reply is made before the request is merged, so it never tells the other node what
that has just told itself.
-/

set_option autoImplicit false

namespace Overlay.Engine

open Chance PeerCache

variable {settings : Settings} {owner : PeerId} {engine : Engine}

/-- The copies that a message tells of: the one of its sender, and some that the engine holds. -/
structure Introduces (engine : Engine) (own : PeerRecord) (now : Timestamp)
    (entries : List Entry) : Prop where
  self : engine.fresh own now ∈ entries
  held : ∀ copy ∈ entries, copy = engine.fresh own now ∨ copy ∈ engine.cache.entries

theorem payload_introduces (engine : Engine) (own : PeerRecord) (now : Timestamp) :
    (engine.payload own now).Ensures (engine.Introduces own now) := by
  refine (engine.cache.sample_origin _).bind fun peers origin => (ensures_pure _ _).mpr ?_
  refine ⟨List.mem_append_right _ List.mem_cons_self, fun copy told => ?_⟩
  rcases List.mem_append.mp told with peer | self
  · exact Or.inr (origin copy peer)
  · exact Or.inl (List.mem_singleton.mp self)

/-- A message from an engine to a node. -/
structure Addresses (engine : Engine) (own : PeerRecord) (now : Timestamp) (receiver : PeerRecord)
    (isRequest : Bool) (message : Message) : Prop where
  sender : message.sender = own
  receiver : message.receiver = receiver
  isRequest : message.isRequest = isRequest
  algorithm : message.algorithm = engine.algorithm.name
  introduces : engine.Introduces own now message.entries

theorem message_addresses (engine : Engine) (own : PeerRecord) (now : Timestamp)
    (receiver : PeerRecord) (isRequest : Bool) :
    (engine.message own now receiver isRequest).Ensures
      (engine.Addresses own now receiver isRequest) :=
  (payload_introduces engine own now).bind fun _ introduces =>
    (ensures_pure _ _).mpr ⟨rfl, rfl, rfl, rfl, introduces⟩

/-- Copies that an engine may keep, and that are no more than there is room for. -/
structure Welcome (engine : Engine) (now : Timestamp) (entries : List Entry) : Prop where
  live : ∀ copy ∈ engine.cache.entries ++ entries,
    now < copy.expiresAt ∧ copy.record.version = engine.settings.version
  room : (others engine.owner (ids engine.cache.entries ++ ids entries)).length ≤
    engine.settings.cacheSize.toNat

section Joins

variable (sound : Sound settings owner engine) {now : Timestamp}

include sound

theorem learn_joins {entries : List Entry} (welcome : engine.Welcome now entries) :
    (engine.learn now entries).Ensures fun after =>
      (∃ cache, after = { engine with cache, tally := engine.tally.observe entries }) ∧
      Joined owner engine.cache.entries entries after.cache.entries := by
  have live := welcome.live
  have room := welcome.room
  rw [sound.configured] at live room
  rw [← sound.capacity] at room
  rw [← sound.version] at live
  refine (addAll_joined sound.cache.distinct sound.cache.foreign live room).bind fun cache both =>
    (ensures_pure _ _).mpr ?_
  rw [← sound.owned]
  exact ⟨⟨cache, rfl⟩, both.2⟩

theorem answer_joins (own : PeerRecord) {request : Message}
    (welcome : engine.Welcome now request.entries) :
    (engine.answer own now request).Ensures fun answer =>
      engine.Addresses own now request.sender false answer.1 ∧
      Joined owner engine.cache.entries request.entries answer.2.cache.entries := by
  refine (message_addresses engine own now request.sender false).bind fun reply addresses => ?_
  refine (learn_joins sound welcome).bind fun learned both => (ensures_pure _ _).mpr ?_
  exact ⟨addresses, both.2⟩

/-- The peer that answered is kept for second attempts. -/
theorem keepFallback_keeps (now : Timestamp) {sender : PeerRecord} (foreign : sender.id ≠ owner) :
    (engine.keepFallback now sender).Ensures fun after =>
      (∃ fallback, after = { engine with fallback }) ∧
      (engine.algorithm.policy.keepsFallback → ∃ pool, after.fallback = some pool ∧
        sender.id ∈ ids pool.entries) := by
  rw [← sound.keeps, keepFallback]
  cases kept : engine.fallback with
  | none =>
      refine (ensures_pure _ _).mpr ⟨⟨none, ?_⟩, Bool.noConfusion⟩
      rw [← kept]
  | some pool =>
      have reserve := sound.reserve pool kept
      have apart : (engine.fresh sender now).id ≠ pool.owner := by
        rw [reserve.owned]
        exact foreign
      refine (replace_keeps reserve.distinct apart _).bind fun after there => ?_
      exact (ensures_pure _ _).mpr ⟨⟨some after, rfl⟩, fun _ => ⟨after, rfl, there⟩⟩

theorem accept_joins {reply : Message} (welcome : engine.Welcome now reply.entries)
    (foreign : reply.sender.id ≠ owner) :
    (engine.accept now reply).Ensures fun after =>
      Joined owner engine.cache.entries reply.entries after.cache.entries ∧
      (engine.algorithm.policy.keepsFallback → ∃ pool, after.fallback = some pool ∧
        reply.sender.id ∈ ids pool.entries) := by
  have learning : (engine.learn now reply.entries).Ensures fun after =>
      Sound settings owner after ∧ after.algorithm = engine.algorithm ∧
        Joined owner engine.cache.entries reply.entries after.cache.entries := by
    intro dice
    obtain ⟨⟨cache, same⟩, joined⟩ := learn_joins sound welcome dice
    refine ⟨sound.learn now reply.entries dice, ?_, joined⟩
    rw [same]
  refine learning.bind fun learned all => ?_
  obtain ⟨soundLearned, named, joined⟩ := all
  refine (keepFallback_keeps soundLearned now foreign).bind fun kept both => ?_
  obtain ⟨⟨fallback, rfl⟩, keeps⟩ := both
  refine (ensures_pure _ _).mpr ⟨joined, ?_⟩
  rw [← named]
  exact keeps

end Joins

end Overlay.Engine
