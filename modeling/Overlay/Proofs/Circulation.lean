import Overlay.Proofs.Engine
import Overlay.Proofs.PeerCache.Invariant
import Overlay.Proofs.Program.Play

/-!
The cached peers that an engine tells others of and turns to.

A merge sweeps the cache; choosing a peer or a payload from it does not. So a copy that an engine
passes on was live when the engine merged last, or came in from outside since then
(`reached_vetted`). By the time that it is passed on its own time may be up, and a peer from outside
was never compared with the version of the cache.
-/

set_option autoImplicit false

namespace Overlay.Engine

open Chance PeerCache

variable {engine : Engine}

/-- A merge has swept the cache. -/
structure Swept (before : Engine) (now : Timestamp) (after : Engine) : Prop where
  settings : after.settings = before.settings
  frame : SameFrame before.cache after.cache
  live : ∀ copy ∈ after.cache.entries, after.cache.isLive now copy

theorem learn_swept (now : Timestamp) (entries : List Entry) :
    (engine.learn now entries).Ensures (Swept engine now) := by
  refine (engine.cache.addAll_live now entries).bind fun cache both => ?_
  refine (ensures_pure _ _).mpr ⟨rfl, both.1, fun copy held => ?_⟩
  rw [both.1.isLive_eq]
  exact both.2 copy held

theorem accept_swept (now : Timestamp) (reply : Message) :
    (engine.accept now reply).Ensures (Swept engine now) := by
  refine (learn_swept now reply.entries).bind fun learned swept => ?_
  refine (keepFallback_origin _ now reply.sender).bind fun kept both => ?_
  obtain ⟨⟨fallback, rfl⟩, _⟩ := both
  exact (ensures_pure _ _).mpr ⟨swept.settings, swept.frame, swept.live⟩

theorem answer_swept (own : PeerRecord) (now : Timestamp) (request : Message) :
    (engine.answer own now request).Ensures fun answer => Swept engine now answer.2 := by
  refine (ensures_true _).bind fun reply _ => ?_
  refine (learn_swept now request.entries).bind fun learned swept => ?_
  exact (ensures_pure _ _).mpr ⟨swept.settings, swept.frame, swept.live⟩

theorem seed_frame (engine : Engine) (record : PeerRecord) (now : Timestamp) :
    (engine.seed record now).Ensures fun after => SameFrame engine.cache after.cache :=
  (engine.cache.add_frame _).bind fun _ same => (ensures_pure _ _).mpr same

/-- An engine at work, with the clock of its node. -/
structure Course where
  engine : Engine
  clock : Timestamp
  /-- When the engine merged last, or began. -/
  mergedAt : Timestamp
  /-- Who was taken in from outside since then, and when the search for each of them began. -/
  seeds : List (PeerRecord × Timestamp)

namespace Course

/-- A new engine. -/
def start (algorithm : Algorithm) (settings : Settings) (owner : PeerId) (now : Timestamp) :
    Course := ⟨Engine.start algorithm settings owner now, now, now, []⟩

/-- What can happen to an engine next, whatever is drawn and whatever others send: time passes, a
peer comes in from outside, and a round begins or ends, or a request is served. -/
inductive Step : Course → Course → Prop
  | pass {now : Course} {later : Timestamp} (onward : now.clock ≤ later) :
      Step now { now with clock := later }
  | seed {now : Course} (record : PeerRecord) (asked : Timestamp) (dice : Dice)
      (earlier : asked ≤ now.clock) (news : now.engine.isNews record) :
      Step now { now with
        engine := (now.engine.seed record asked dice).1, seeds := (record, asked) :: now.seeds }
  | older {now : Course} : Step now { now with engine := now.engine.older }
  | accept {now : Course} (reply : Message) (dice : Dice) :
      Step now { now with
        engine := (now.engine.accept now.clock reply dice).1, mergedAt := now.clock, seeds := [] }
  | retried {now : Course} : Step now { now with engine := now.engine.retried }
  | failed {now : Course} : Step now { now with engine := now.engine.failed }
  | answer {now : Course} (own : PeerRecord) (request : Message) (dice : Dice) :
      Step now { now with
        engine := (now.engine.answer own now.clock request dice).1.2, mergedAt := now.clock,
        seeds := [] }

/-- What an engine can come to. -/
inductive Reached : Course → Prop
  | start (algorithm : Algorithm) (settings : Settings) (owner : PeerId) (now : Timestamp) :
      Reached (start algorithm settings owner now)
  | step {now after : Course} (reached : Reached now) (step : Step now after) : Reached after

/-- A copy was live when the engine merged last, or it is of a peer taken in from outside since
then, with the time that a new copy is given. -/
def Vetted (now : Course) (copy : Entry) : Prop :=
  now.engine.cache.isLive now.mergedAt copy ∨
    ∃ seed ∈ now.seeds, copy.record = seed.1 ∧
      copy.expiresAt = (now.engine.fresh seed.1 seed.2).expiresAt

/-- What holds of an engine at any time. -/
structure Sound (now : Course) : Prop where
  version : now.engine.cache.version = now.engine.settings.version
  merged : now.mergedAt ≤ now.clock
  sought : ∀ seed ∈ now.seeds, seed.2 ≤ now.clock
  vetted : ∀ copy ∈ now.engine.cache.entries, now.Vetted copy

variable {now after : Course}

theorem sound_start (algorithm : Algorithm) (settings : Settings) (owner : PeerId)
    (clock : Timestamp) : (start algorithm settings owner clock).Sound :=
  ⟨rfl, UInt64.le_refl _, nofun, nofun⟩

/-- What is left after a merge is live, so there is nothing to account for from before. -/
theorem sound_swept {merged : Engine} (sound : now.Sound)
    (swept : Swept now.engine now.clock merged) :
    Sound { now with engine := merged, mergedAt := now.clock, seeds := [] } where
  version := by
    rw [swept.frame.version_eq, sound.version, swept.settings]
  merged := UInt64.le_refl _
  sought := nofun
  vetted copy held := Or.inl (swept.live copy held)

theorem sound_seed {record : PeerRecord} {asked : Timestamp} (sound : now.Sound)
    (earlier : asked ≤ now.clock) (dice : Dice) :
    Sound { now with
      engine := (now.engine.seed record asked dice).1, seeds := (record, asked) :: now.seeds } := by
  have frame := now.engine.seed_frame record asked dice
  obtain ⟨⟨cache, seeded⟩, origin⟩ := now.engine.seed_origin record asked dice
  rw [seeded] at frame origin
  rw [seeded]
  refine ⟨?_, sound.merged, ?_, fun copy held => ?_⟩
  · exact frame.version_eq.trans sound.version
  · exact List.forall_mem_cons.mpr ⟨earlier, sound.sought⟩
  · rcases origin copy held with rfl | before
    · exact Or.inr ⟨(record, asked), List.mem_cons_self, rfl, rfl⟩
    · rcases sound.vetted copy before with live | ⟨seed, sought, same⟩
      · exact Or.inl (frame.isLive_eq.symm ▸ live)
      · exact Or.inr ⟨seed, List.mem_cons_of_mem _ sought, same⟩

theorem sound_older (sound : now.Sound) : Sound { now with engine := now.engine.older } where
  version := sound.version
  merged := sound.merged
  sought := sound.sought
  vetted copy held := by
    obtain ⟨before, stored, rfl⟩ := List.mem_map.mp held
    exact sound.vetted before stored

theorem Step.sound (step : Step now after) (sound : now.Sound) : after.Sound := by
  cases step with
  | pass onward =>
      refine ⟨sound.version, UInt64.le_trans sound.merged onward, ?_, sound.vetted⟩
      exact fun seed sought => UInt64.le_trans (sound.sought seed sought) onward
  | seed record asked dice earlier _ => exact sound_seed sound earlier dice
  | older => exact sound_older sound
  | accept reply dice => exact sound_swept sound (accept_swept now.clock reply dice)
  | retried => exact ⟨sound.version, sound.merged, sound.sought, sound.vetted⟩
  | failed => exact ⟨sound.version, sound.merged, sound.sought, sound.vetted⟩
  | answer own request dice => exact sound_swept sound (answer_swept own now.clock request dice)

theorem Reached.sound (reached : Reached now) : now.Sound := by
  induction reached with
  | start algorithm settings owner clock => exact sound_start algorithm settings owner clock
  | step _ step ih => exact step.sound ih

/-- Every cached peer that the engine tells others of, beside its own node, and every one that a
round turns to has a copy of some kind. -/
structure PassesOnly (now : Course) (kind : Entry → Prop) : Prop where
  told : ∀ own receiver isRequest,
    (now.engine.message own now.clock receiver isRequest).Ensures fun message =>
      ∀ copy ∈ message.entries,
        copy = now.engine.fresh own now.clock ∨ copy ∈ now.engine.cache.entries ∧ kind copy
  chosen : now.engine.target.Ensures fun found => ∀ record, found = some record →
    ∃ copy ∈ now.engine.cache.entries, copy.record = record ∧ kind copy

theorem passesOnly_of_cached {kind : Entry → Prop}
    (cached : ∀ copy ∈ now.engine.cache.entries, kind copy) : now.PassesOnly kind where
  told own receiver isRequest :=
    (now.engine.message_origin own now.clock receiver isRequest).mono
      fun message told copy member => (told.2.2 copy member).imp_right fun held =>
        ⟨held, cached copy held⟩
  chosen := now.engine.target_origin.mono fun _ origin record found => by
    obtain ⟨copy, held, same⟩ := origin record found
    exact ⟨copy, held, same, cached copy held⟩

/-- The time of a copy is not up, and its peer speaks the version of the node. -/
def IsCurrent (now : Course) (copy : Entry) : Prop :=
  now.clock < copy.expiresAt ∧ copy.record.version = now.engine.settings.version

/-- Whatever has happened, an engine passes on only what was live when it merged last or came in
from outside since then. Right after a merge that is what is current. -/
theorem reached_vetted (reached : Reached now) :
    now.PassesOnly now.Vetted ∧
      (now.mergedAt = now.clock → now.seeds = [] → now.PassesOnly now.IsCurrent) := by
  have sound := reached.sound
  refine ⟨passesOnly_of_cached sound.vetted, fun merged unseeded => ?_⟩
  refine passesOnly_of_cached fun copy held => ?_
  rcases sound.vetted copy held with live | ⟨seed, sought, _⟩
  · rw [merged, isLive_iff, sound.version] at live
    exact live.2
  · rw [unseeded] at sought
    cases sought

section Lingering

/-- An engine that has taken in a peer from outside and met nobody since, for as long as a copy
lives. -/
def lingering : Course :=
  let engine := Engine.start .arrg .brisk (.ofNat 0) ⟨0⟩
  ⟨(engine.seed (.numbered 1) ⟨0⟩ .last).1, ⟨60000⟩, ⟨0⟩, [(.numbered 1, ⟨0⟩)]⟩

theorem reached_lingering : Reached lingering :=
  ((Reached.start .arrg .brisk (.ofNat 0) ⟨0⟩).step
    (.seed (.numbered 1) ⟨0⟩ .last (by decide) (by decide))).step
      (@Step.pass _ ⟨60000⟩ (by decide))

theorem reached_vetted_lingering : Reached lingering ∧ lingering.PassesOnly lingering.Vetted :=
  ⟨reached_lingering, (reached_vetted reached_lingering).1⟩

/-- The time of a copy is up, but the engine tells others of the peer, and turns to it. -/
theorem expired_passedOn : Reached lingering ∧
    ∃ copy ∈ lingering.engine.cache.entries, copy.isExpired lingering.clock ∧
      copy ∈ (lingering.engine.message (.numbered 0) lingering.clock (.numbered 2) true
        .last).1.entries ∧
      (lingering.engine.target .last).1 = some copy.record := by
  refine ⟨reached_lingering, .fresh (.numbered 1) ⟨0⟩ 60000, ?_, ?_, ?_, ?_⟩
  all_goals decide +kernel

end Lingering

end Course

end Overlay.Engine
