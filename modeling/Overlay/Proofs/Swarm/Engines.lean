import Overlay.Proofs.Node.State
import Overlay.Proofs.Swarm.Rules

/-!
What the jobs of a swarm do to the engines of their node.
-/

set_option autoImplicit false

namespace Overlay.Swarm

open Chance Node PeerCache Surroundings

variable {timing : Timing} {chronicle : Chronicle} {now : View} {α : Type}

/-- Where a job may have got to without waiting and without a new record. -/
structure Lingers (timing : Timing) (before after : View) : Prop extends
    Reaches timing before after where
  chronicle : after.chronicle = before.chronicle
  link : after.link = before.link
  now : after.node.clock = before.node.clock
  record : after.node.record = before.node.record

/-- An engine that a job may put in the place of another one. -/
structure Succeeds (timing : Timing) (now : View) (before after : Engine) : Prop where
  algorithm : after.algorithm = before.algorithm
  sound : EngineSound timing now.chronicle after
  spares : Spares timing now.chronicle now.node.clock before after

theorem start_sound {algorithm : Algorithm} {settings : Settings} {owner : PeerId}
    {time : Timestamp}
    (lifetime : ∀ lifetime, timing = .shared lifetime → settings.entryLifetime = lifetime) :
    EngineSound timing chronicle (Engine.start algorithm settings owner time) := by
  refine ⟨nofun, fun pool kept copy held => ?_, lifetime⟩
  simp only [Engine.start] at kept
  split at kept
  · cases kept
    cases held
  · cases kept

theorem NodeSound.engine {node : Node} (sound : NodeSound timing chronicle node)
    (algorithm : Algorithm) : EngineSound timing chronicle (node.engine algorithm) := by
  rcases node.engine_mem_or_start algorithm with member | fresh
  · exact sound.engines _ member
  · exact fresh ▸ start_sound sound.lifetime

theorem NodeSound.genuine {node : Node} (sound : NodeSound timing chronicle node) :
    Genuine chronicle node.record :=
  ⟨node.record, List.mem_of_head? sound.own, Or.inl rfl⟩

theorem Genuine.of_fallback {engine : Engine} (sound : EngineSound timing chronicle engine)
    {record : PeerRecord} (member : record ∈ engine.fallbackNodes) : Genuine chronicle record := by
  obtain ⟨pool, kept, copy, held, rfl⟩ := engine.mem_fallbackNodes member
  exact sound.fallback pool kept copy held

theorem evolves_engine (dice : Dice) {engine : Engine} {algorithm : Algorithm}
    (sound : ViewSound timing now)
    (succeeds : Succeeds timing now (now.node.engine algorithm) engine) :
    Evolves timing now ({ now.node with dice }.withEngine engine) where
  sound := by
    have own := Chronicle.advertise_same sound.node.own
    change NodeSound timing (now.chronicle.advertise now.node.record) _
    rw [own]
    refine ⟨sound.node.own, sound.node.bootstrap, sound.node.membership, sound.node.lifetime,
      fun held member => ?_, sound.node.trackers⟩
    rcases mem_withEngine member with rfl | before
    · exact succeeds.sound
    · exact sound.node.engines held before
  settings := rfl
  clock := rfl
  record := Or.inl rfl
  engines other := by
    have named := succeeds.algorithm.trans (now.node.engine_algorithm algorithm)
    rcases engine_withEngine { now.node with dice } engine other with ⟨replaced, rfl⟩ | kept
    · rw [replaced, named]
      exact succeeds.spares
    · rw [kept]
      exact .refl _

theorem keeps_onEngine {algorithm : Algorithm} {change : Engine → Chance (α × Engine)}
    {post : α → View → Prop} (fact : α → Prop) (sound : ViewSound timing now)
    (ensures : (change (now.node.engine algorithm)).Ensures fun changed =>
      Succeeds timing now (now.node.engine algorithm) changed.2 ∧ fact changed.1)
    (holds : ∀ value after, Lingers timing now after → fact value → post value after) :
    (world timing).Keeps (onEngine algorithm change) post now := by
  have changed := ensures now.node.dice
  simp only [onEngine, keeps_bind, keeps_get]
  apply keeps_draw sound
  intro dice
  have drawn := (evolves_dice sound dice).reaches_same sound rfl
  rw [keeps_bind]
  have evolves : Evolves timing { now with node := { now.node with dice } }
      ({ now.node with dice }.withEngine
        (change (now.node.engine algorithm) now.node.dice).1.2) := by
    obtain ⟨sound, settings, clock, record, engines⟩ := evolves_engine dice sound
      changed.1
    exact ⟨sound, settings, clock, record, engines⟩
  refine keeps_modify_same drawn.sound evolves rfl (holds _ _ ?_ changed.2)
  exact ⟨drawn.trans (evolves.reaches_same drawn.sound rfl), rfl, rfl, rfl, rfl⟩

/-- What a merge leaves is not over, so it is of no peer that has been silent for too long. -/
theorem spares_of_live {time : Timestamp} {before after : Engine}
    (traced : ∀ copy ∈ after.cache.entries, Traced timing chronicle copy)
    (live : ∀ copy ∈ after.cache.entries, time < copy.expiresAt) :
    Spares timing chronicle time before after := by
  intro lifetime shared id dead held
  obtain ⟨copy, stored, rfl⟩ := mem_ids.mp held
  obtain ⟨spoken, said, bound⟩ := (traced copy stored).dated lifetime shared
  have expired := Timestamp.le_trans bound (dead spoken said)
  exact absurd (live copy stored) (Timestamp.not_lt.mpr expired)

theorem spares_of_ids {time : Timestamp} {before after : Engine}
    (kept : ∀ id ∈ ids after.cache.entries, id ∈ ids before.cache.entries)
    (same : after.merges = before.merges) : Spares timing chronicle time before after :=
  fun _ _ id _ held => ⟨kept id held, same⟩

variable {engine : Engine}

/-- Counting alone changes nothing that matters. -/
theorem succeeds_tally (sound : EngineSound timing now.chronicle engine) {tally : Tally}
    (same : { engine with tally }.merges = engine.merges) :
    Succeeds timing now engine { engine with tally } :=
  ⟨rfl, ⟨sound.cache, sound.fallback, sound.lifetime⟩, spares_of_ids (fun _ held => held) same⟩

theorem succeeds_older (sound : EngineSound timing now.chronicle engine) :
    Succeeds timing now engine engine.older := by
  refine ⟨rfl, ⟨fun copy held => ?_, sound.fallback, sound.lifetime⟩,
    spares_of_ids (fun id held => ?_) rfl⟩
  · obtain ⟨before, stored, rfl⟩ := List.mem_map.mp held
    exact (sound.cache before stored).older
  · obtain ⟨copy, aged, rfl⟩ := mem_ids.mp held
    obtain ⟨before, stored, rfl⟩ := List.mem_map.mp aged
    exact mem_ids.mpr ⟨before, stored, rfl⟩

/-- The answer to a question for a record, and when it was asked for: the peer has spoken since, and
is not dead. -/
structure Recent (timing : Timing) (now : View) (asked : Timestamp) (record : PeerRecord) :
    Prop where
  genuine : Genuine now.chronicle record
  spoken : ∀ lifetime, timing = .shared lifetime → ∃ spoken,
    now.chronicle.spoken record.id = some spoken ∧ asked ≤ spoken ∧
      (now.isSeeding → now.node.clock < spoken.plus lifetime)

theorem seed_succeeds {record : PeerRecord} {asked : Timestamp}
    (sound : EngineSound timing now.chronicle engine) (seeding : now.isSeeding)
    (recent : Recent timing now asked record) :
    (engine.seed record asked).Ensures (Succeeds timing now engine) := by
  refine (engine.seed_origin record asked).mono ?_
  rintro after ⟨⟨cache, rfl⟩, origin⟩
  refine ⟨rfl, ⟨fun copy held => ?_, sound.fallback, sound.lifetime⟩, ?_⟩
  · rcases origin copy held with rfl | before
    · refine ⟨recent.genuine, fun lifetime shared => ?_⟩
      obtain ⟨spoken, said, since, _⟩ := recent.spoken lifetime shared
      have same := sound.lifetime lifetime shared
      refine ⟨spoken, said, ?_⟩
      change asked.plus engine.settings.entryLifetime ≤ _
      rw [same]
      exact Timestamp.plus_le_plus since lifetime
    · exact sound.cache copy before
  · intro lifetime shared id dead held
    obtain ⟨copy, stored, rfl⟩ := mem_ids.mp held
    rcases origin copy stored with rfl | before
    · obtain ⟨spoken, said, _, alive⟩ := recent.spoken lifetime shared
      exact absurd (alive seeding) (Timestamp.not_lt.mpr (dead spoken said))
    · exact ⟨mem_ids_of_mem before, rfl⟩

theorem accept_succeeds {reply : Message} (sound : EngineSound timing now.chronicle engine)
    (truthful : Truthful timing now.chronicle reply) :
    (engine.accept now.node.clock reply).Ensures (Succeeds timing now engine) := by
  refine (engine.accept_origin now.node.clock reply).mono fun after accepted => ?_
  have traced : ∀ copy ∈ after.cache.entries, Traced timing now.chronicle copy := by
    intro copy held
    rcases (accepted.cache copy held).1 with brought | before
    · exact truthful.entries copy brought
    · exact sound.cache copy before
  refine ⟨accepted.algorithm, ⟨traced, fun pool kept copy held => ?_, ?_⟩,
    spares_of_live traced fun copy held => (accepted.cache copy held).2⟩
  · rcases accepted.fallback pool kept copy held with same | ⟨before, kept, held⟩
    · exact same ▸ truthful.sender
    · exact sound.fallback before kept copy held
  · rw [accepted.settings]
    exact sound.lifetime

/-- The copy that a node tells of itself when it speaks. -/
theorem traced_fresh {node : Node} (sound : NodeSound timing chronicle node)
    (kept : EngineSound timing chronicle engine) :
    Traced timing (chronicle.speak node.record.id node.clock)
      (engine.fresh node.record node.clock) := by
  refine ⟨sound.genuine.mono (chronicle.speak_grows _ _), fun lifetime shared => ?_⟩
  obtain ⟨spoken, said, order⟩ := chronicle.spoken_speak node.record.id node.clock
  refine ⟨spoken, said, ?_⟩
  change node.clock.plus engine.settings.entryLifetime ≤ _
  rw [kept.lifetime lifetime shared]
  exact Timestamp.plus_le_plus order lifetime

/-- What a node says is true once it has been noted that it spoke. -/
theorem truthful_of_origin {node : Node} (sound : NodeSound timing chronicle node)
    (kept : EngineSound timing chronicle engine) {message : Message}
    (sender : message.sender = node.record) (receiver : Genuine chronicle message.receiver)
    (origin : ∀ copy ∈ message.entries,
      copy = engine.fresh node.record node.clock ∨ copy ∈ engine.cache.entries) :
    Truthful timing (chronicle.speak node.record.id node.clock) message := by
  have grows := chronicle.speak_grows node.record.id node.clock
  refine ⟨sender ▸ sound.genuine.mono grows, receiver.mono grows, fun copy told => ?_⟩
  rcases origin copy told with rfl | held
  · exact traced_fresh sound kept
  · exact (kept.cache copy held).mono grows

theorem answer_succeeds {request : Message} (sound : ViewSound timing now)
    (kept : EngineSound timing now.chronicle engine)
    (truthful : Truthful timing now.chronicle request) :
    (engine.answer now.node.record now.node.clock request).Ensures fun answered =>
      Succeeds timing now engine answered.2 ∧
        Truthful timing now.speak.chronicle answered.1 := by
  intro dice
  obtain ⟨cache, tally, frame⟩ := engine.answer_frame now.node.record now.node.clock request dice
  obtain ⟨⟨sender, receiver, told⟩, origin⟩ :=
    engine.answer_origin now.node.record now.node.clock request dice
  have traced : ∀ copy ∈
      (engine.answer now.node.record now.node.clock request dice).1.2.cache.entries,
      Traced timing now.chronicle copy := by
    intro copy held
    rcases (origin copy held).1 with brought | before
    · exact truthful.entries copy brought
    · exact kept.cache copy before
  refine ⟨⟨?_, ⟨traced, ?_, ?_⟩, spares_of_live traced fun copy held => (origin copy held).2⟩,
    truthful_of_origin sound.node kept sender (receiver ▸ truthful.sender) told⟩
  · rw [frame]
  · rw [frame]
    exact kept.fallback
  · rw [frame]
    exact kept.lifetime

theorem message_truthful {receiver : PeerRecord} {isRequest : Bool} (sound : ViewSound timing now)
    (kept : EngineSound timing now.chronicle engine) (genuine : Genuine now.chronicle receiver) :
    (engine.message now.node.record now.node.clock receiver isRequest).Ensures
      (Truthful timing now.speak.chronicle) := by
  refine (engine.message_origin _ _ receiver isRequest).mono ?_
  rintro message ⟨sender, rfl, told⟩
  exact truthful_of_origin sound.node kept sender genuine told

end Overlay.Swarm
