import Overlay.Engine
import Overlay.Proofs.PeerCache.Origin

/-!
What the operations of an engine leave as it was, and where that which they tell and store comes
from.
-/

set_option autoImplicit false

namespace Overlay.Engine

open Chance PeerCache

variable (engine : Engine)

theorem learn_frame (now : Timestamp) (entries : List Entry) :
    (engine.learn now entries).Ensures fun after =>
      ∃ cache, after = { engine with cache, tally := engine.tally.observe entries } := by
  refine Ensures.bind (ensures_true _) fun cache _ => ?_
  exact (ensures_pure _ _).mpr ⟨cache, rfl⟩

/-- An answer changes the cache and the tally, and nothing else. -/
theorem answer_frame (own : PeerRecord) (now : Timestamp) (request : Message) :
    (engine.answer own now request).Ensures fun answer =>
      ∃ cache tally, answer.2 = { engine with cache, tally } := by
  refine Ensures.bind (ensures_true _) fun reply _ => ?_
  refine Ensures.bind (engine.learn_frame now request.entries) fun learned frame => ?_
  obtain ⟨cache, rfl⟩ := frame
  exact (ensures_pure _ _).mpr ⟨cache, _, rfl⟩

theorem payload_origin (own : PeerRecord) (now : Timestamp) :
    (engine.payload own now).Ensures fun entries =>
      ∀ copy ∈ entries, copy = engine.fresh own now ∨ copy ∈ engine.cache.entries := by
  refine Ensures.bind (engine.cache.sample_origin _) fun peers origin => ?_
  refine (ensures_pure _ _).mpr fun copy told => ?_
  rcases List.mem_append.mp told with peer | self
  · exact Or.inr (origin copy peer)
  · exact Or.inl (List.mem_singleton.mp self)

/-- A message names its sender and its receiver, and tells of cached peers and of its sender. -/
theorem message_origin (own : PeerRecord) (now : Timestamp) (receiver : PeerRecord)
    (isRequest : Bool) :
    (engine.message own now receiver isRequest).Ensures fun message =>
      message.sender = own ∧ message.receiver = receiver ∧
        ∀ copy ∈ message.entries, copy = engine.fresh own now ∨ copy ∈ engine.cache.entries := by
  refine Ensures.bind (engine.payload_origin own now) fun entries origin => ?_
  exact (ensures_pure _ _).mpr ⟨rfl, rfl, origin⟩

/-- The number of payloads that were taken in for good. -/
def merges : Nat := engine.tally.exchanges + engine.tally.requestsServed

/-- An answer counts as one request served, and its payload is kept in mind. -/
theorem answer_tally (own : PeerRecord) (now : Timestamp) (request : Message) :
    (engine.answer own now request).Ensures fun answer =>
      answer.2.tally = { engine.tally.observe request.entries with
        requestsServed := engine.tally.requestsServed + 1 } := by
  refine Ensures.bind (ensures_true _) fun reply _ => ?_
  refine Ensures.bind (engine.learn_frame now request.entries) fun learned frame => ?_
  obtain ⟨cache, rfl⟩ := frame
  exact (ensures_pure _ _).mpr rfl

theorem answer_merges (own : PeerRecord) (now : Timestamp) (request : Message) :
    (engine.answer own now request).Ensures fun answer =>
      answer.2.merges = engine.merges + 1 := by
  refine (engine.answer_tally own now request).mono fun answer counted => ?_
  simp only [merges, counted, Tally.observe]
  omega

/-- What a merge leaves: nothing that is over, and nothing that was neither held nor brought. -/
theorem learn_origin (now : Timestamp) (entries : List Entry) :
    (engine.learn now entries).Ensures fun after => ∀ copy ∈ after.cache.entries,
      (copy ∈ entries ∨ copy ∈ engine.cache.entries) ∧ now < copy.expiresAt := by
  refine Ensures.bind (engine.cache.addAll_origin now entries) fun cache origin => ?_
  exact (ensures_pure _ _).mpr origin

theorem answer_origin (own : PeerRecord) (now : Timestamp) (request : Message) :
    (engine.answer own now request).Ensures fun answer =>
      (answer.1.sender = own ∧ answer.1.receiver = request.sender ∧
        ∀ copy ∈ answer.1.entries,
          copy = engine.fresh own now ∨ copy ∈ engine.cache.entries) ∧
      ∀ copy ∈ answer.2.cache.entries,
        (copy ∈ request.entries ∨ copy ∈ engine.cache.entries) ∧ now < copy.expiresAt := by
  refine Ensures.bind (engine.message_origin own now request.sender false) fun reply told => ?_
  refine Ensures.bind (engine.learn_origin now request.entries) fun learned origin => ?_
  exact (ensures_pure _ _).mpr ⟨told, origin⟩

theorem keepFallback_origin (now : Timestamp) (sender : PeerRecord) :
    (engine.keepFallback now sender).Ensures fun after =>
      (∃ fallback, after = { engine with fallback }) ∧
      ∀ pool, after.fallback = some pool → ∀ copy ∈ pool.entries,
        copy = engine.fresh sender now ∨
          ∃ before, engine.fallback = some before ∧ copy ∈ before.entries := by
  rw [keepFallback]
  cases kept : engine.fallback with
  | none =>
      refine (ensures_pure _ _).mpr ⟨⟨none, ?_⟩, fun pool impossible => ?_⟩
      · rw [← kept]
      · cases kept.symm.trans impossible
  | some before =>
      refine Ensures.bind (before.replace_origin _ _) fun pool origin => ?_
      refine (ensures_pure _ _).mpr ⟨⟨some pool, rfl⟩, fun other same copy held => ?_⟩
      cases same
      exact (origin copy held).imp_right fun stored => ⟨before, rfl, stored⟩

/-- What is left when a reply was taken in. -/
structure Accepted (now : Timestamp) (reply : Message) (after : Engine) : Prop where
  algorithm : after.algorithm = engine.algorithm
  settings : after.settings = engine.settings
  cache : ∀ copy ∈ after.cache.entries,
    (copy ∈ reply.entries ∨ copy ∈ engine.cache.entries) ∧ now < copy.expiresAt
  fallback : ∀ pool, after.fallback = some pool → ∀ copy ∈ pool.entries,
    copy.record = reply.sender ∨ ∃ before, engine.fallback = some before ∧ copy ∈ before.entries

theorem accept_origin (now : Timestamp) (reply : Message) :
    (engine.accept now reply).Ensures (engine.Accepted now reply) := by
  have learning : (engine.learn now reply.entries).Ensures fun after =>
      (∃ cache, after = { engine with cache, tally := engine.tally.observe reply.entries }) ∧
      ∀ copy ∈ after.cache.entries,
        (copy ∈ reply.entries ∨ copy ∈ engine.cache.entries) ∧ now < copy.expiresAt :=
    fun dice => ⟨engine.learn_frame now reply.entries dice,
      engine.learn_origin now reply.entries dice⟩
  refine Ensures.bind learning fun learned both => ?_
  obtain ⟨⟨cache, rfl⟩, origin⟩ := both
  refine Ensures.bind (keepFallback_origin _ now reply.sender) fun kept both => ?_
  obtain ⟨⟨fallback, rfl⟩, pools⟩ := both
  refine (ensures_pure _ _).mpr ⟨rfl, rfl, origin, fun pool same copy held => ?_⟩
  exact (pools pool same copy held).imp_left fun same => by rw [same]; rfl

/-- A reply counts as one exchange, and its payload is kept in mind. -/
theorem accept_tally (now : Timestamp) (reply : Message) :
    (engine.accept now reply).Ensures fun after =>
      after.tally = { engine.tally.observe reply.entries with
        exchanges := engine.tally.exchanges + 1 } := by
  refine Ensures.bind (engine.learn_frame now reply.entries) fun learned frame => ?_
  obtain ⟨cache, rfl⟩ := frame
  refine Ensures.bind (keepFallback_origin _ now reply.sender) fun kept both => ?_
  obtain ⟨⟨fallback, rfl⟩, _⟩ := both
  exact (ensures_pure _ _).mpr rfl

theorem accept_merges (now : Timestamp) (reply : Message) :
    (engine.accept now reply).Ensures fun after => after.merges = engine.merges + 1 := by
  refine (engine.accept_tally now reply).mono fun after counted => ?_
  simp only [merges, counted, Tally.observe]
  omega

theorem seed_origin (record : PeerRecord) (now : Timestamp) :
    (engine.seed record now).Ensures fun after =>
      (∃ cache, after = { engine with cache }) ∧
      ∀ copy ∈ after.cache.entries,
        copy = engine.fresh record now ∨ copy ∈ engine.cache.entries := by
  refine Ensures.bind (engine.cache.add_origin _) fun added origin => ?_
  exact (ensures_pure _ _).mpr ⟨⟨_, rfl⟩, origin⟩

theorem target_origin :
    engine.target.Ensures fun found => ∀ record, found = some record →
      ∃ copy ∈ engine.cache.entries, copy.record = record := by
  have named (found : Option Entry) (origin : ∀ copy, found = some copy →
      copy ∈ engine.cache.entries) : ∀ record, found.map (·.record) = some record →
        ∃ copy ∈ engine.cache.entries, copy.record = record := by
    intro record chosen
    obtain ⟨copy, rfl, rfl⟩ := Option.map_eq_some_iff.mp chosen
    exact ⟨copy, origin copy rfl, rfl⟩
  rw [target]
  cases engine.algorithm.policy.selection with
  | random =>
      refine Ensures.bind engine.cache.randomEntry_origin fun found origin => ?_
      exact (ensures_pure _ _).mpr (named found origin)
  | oldest =>
      refine (ensures_pure _ _).mpr (named engine.cache.oldestEntry fun copy found => ?_)
      exact engine.cache.mem_of_oldestEntry found

theorem mem_fallbackNodes {record : PeerRecord} (member : record ∈ engine.fallbackNodes) :
    ∃ pool, engine.fallback = some pool ∧ ∃ copy ∈ pool.entries, copy.record = record := by
  rw [fallbackNodes] at member
  cases kept : engine.fallback with
  | none =>
      rw [kept] at member
      cases member
  | some pool =>
      rw [kept] at member
      exact ⟨pool, rfl, List.mem_map.mp member⟩

theorem fallbackTarget_origin (failed : PeerId) :
    (engine.fallbackTarget failed).Ensures fun found => ∀ record, found = some record →
      record ∈ engine.fallbackNodes := by
  simp only [fallbackTarget]
  split
  · exact (ensures_pure _ _).mpr nofun
  · refine Ensures.bind (ensures_true _) fun place _ => ?_
    refine (ensures_pure _ _).mpr fun record found => ?_
    exact List.mem_of_mem_filter (List.mem_of_getElem? found)

end Overlay.Engine
