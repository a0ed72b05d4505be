import Overlay.Proofs.Engine
import Overlay.Proofs.PeerCache.Invariant

/-!
What can become of an engine.

An engine changes when a peer comes in from outside, when a round begins, goes wrong or brings a
reply, and when a request is served. Whatever happens, its cache never holds more than the settings
say. The peers that it keeps for second attempts are not more than the settings say either, but for
the one that answered last, which is kept in any case (`Reached.sound`).
-/

set_option autoImplicit false

namespace Overlay.Engine

open Chance PeerCache

/-- What can become of an engine next, whatever is drawn, where peers from outside are `known` and
messages have to `arrive`. -/
inductive Step (known : PeerRecord → Prop) (arrives : Message → Prop) : Engine → Engine → Prop
  | seed {engine : Engine} (record : PeerRecord) (now : Timestamp) (dice : Dice)
      (comes : known record) : Step known arrives engine (engine.seed record now dice).1
  | older {engine : Engine} : Step known arrives engine engine.older
  | accept {engine : Engine} (now : Timestamp) (reply : Message) (dice : Dice)
      (came : arrives reply) : Step known arrives engine (engine.accept now reply dice).1
  | retried {engine : Engine} : Step known arrives engine engine.retried
  | failed {engine : Engine} : Step known arrives engine engine.failed
  | answer {engine : Engine} (own : PeerRecord) (now : Timestamp) (request : Message) (dice : Dice)
      (came : arrives request) : Step known arrives engine (engine.answer own now request dice).1.2

/-- What a new engine of a node can come to. -/
inductive Reached (known : PeerRecord → Prop) (arrives : Message → Prop) (settings : Settings)
    (owner : PeerId) : Engine → Prop
  | start (algorithm : Algorithm) (now : Timestamp) :
      Reached known arrives settings owner (start algorithm settings owner now)
  | step {engine after : Engine} (reached : Reached known arrives settings owner engine)
      (step : Step known arrives engine after) : Reached known arrives settings owner after

/-- What holds of the peers that are kept for second attempts. -/
structure Reserve (settings : Settings) (owner : PeerId) (pool : PeerCache) : Prop where
  owned : pool.owner = owner
  distinct : (ids pool.entries).Nodup
  bounded : pool.size ≤ max settings.fallbackCacheSize.toNat 1

/-- What holds of an engine at any time. -/
structure Sound (settings : Settings) (owner : PeerId) (engine : Engine) : Prop where
  configured : engine.settings = settings
  cache : WellFormed engine.cache
  owned : engine.cache.owner = owner
  capacity : engine.cache.capacity = settings.cacheSize.toNat
  version : engine.cache.version = settings.version
  keeps : engine.fallback.isSome = engine.algorithm.policy.keepsFallback
  reserve : ∀ pool, engine.fallback = some pool → Reserve settings owner pool

section Sound

variable {settings : Settings} {owner : PeerId} {engine : Engine}

theorem sound_start (algorithm : Algorithm) (settings : Settings) (owner : PeerId)
    (now : Timestamp) : Sound settings owner (start algorithm settings owner now) where
  configured := rfl
  cache := empty_wellFormed _ _ _ _
  owned := rfl
  capacity := rfl
  version := rfl
  keeps := by
    rw [start]
    cases algorithm.policy.keepsFallback with
    | true => rfl
    | false => rfl
  reserve := by
    intro pool kept
    simp only [start, Option.ite_none_right_eq_some, Option.some.injEq] at kept
    obtain ⟨_, rfl⟩ := kept
    exact ⟨rfl, List.nodup_nil, Nat.zero_le _⟩

theorem Sound.withCache {cache : PeerCache} {tally : Tally} (sound : Sound settings owner engine)
    (whole : WellFormed cache) (frame : SameFrame engine.cache cache) :
    Sound settings owner { engine with cache, tally } where
  configured := sound.configured
  cache := whole
  owned := frame.owner_eq.trans sound.owned
  capacity := frame.capacity_eq.trans sound.capacity
  version := frame.version_eq.trans sound.version
  keeps := sound.keeps
  reserve := sound.reserve

theorem Sound.learn (sound : Sound settings owner engine) (now : Timestamp)
    (entries : List Entry) : (engine.learn now entries).Ensures (Sound settings owner) := by
  refine (addAll_wellFormed engine.cache now entries).bind fun cache kept => ?_
  exact (ensures_pure _ _).mpr (sound.withCache kept.1 kept.2)

theorem Sound.keepFallback (sound : Sound settings owner engine) (now : Timestamp)
    (sender : PeerRecord) : (engine.keepFallback now sender).Ensures (Sound settings owner) := by
  rw [Engine.keepFallback]
  cases kept : engine.fallback with
  | none => exact (ensures_pure _ _).mpr sound
  | some pool =>
      have reserve := sound.reserve pool kept
      rw [sound.configured]
      refine (replace_bounded reserve.distinct reserve.bounded _).bind fun after both => ?_
      obtain ⟨frame, distinct, bounded⟩ := both
      refine (ensures_pure _ _).mpr ?_
      refine ⟨rfl, sound.cache, sound.owned, sound.capacity, sound.version, ?_, ?_⟩
      · rw [← sound.keeps, kept]
        rfl
      · intro other same
        cases same
        exact ⟨frame.owner_eq.trans reserve.owned, distinct, bounded⟩

theorem Sound.accept (sound : Sound settings owner engine) (now : Timestamp) (reply : Message) :
    (engine.accept now reply).Ensures (Sound settings owner) := by
  refine (sound.learn now reply.entries).bind fun learned sound => ?_
  refine (sound.keepFallback now reply.sender).bind fun kept sound => ?_
  exact (ensures_pure _ _).mpr (sound.withCache sound.cache (.refl _))

theorem Sound.answer (sound : Sound settings owner engine) (own : PeerRecord) (now : Timestamp)
    (request : Message) :
    (engine.answer own now request).Ensures fun answer => Sound settings owner answer.2 := by
  refine (ensures_true _).bind fun reply _ => ?_
  refine (sound.learn now request.entries).bind fun learned sound => ?_
  exact (ensures_pure _ _).mpr (sound.withCache sound.cache (.refl _))

theorem Sound.seed (sound : Sound settings owner engine) (record : PeerRecord)
    (now : Timestamp) : (engine.seed record now).Ensures (Sound settings owner) := by
  refine (add_wellFormed sound.cache _).bind fun added kept => ?_
  exact (ensures_pure _ _).mpr (sound.withCache kept.1 kept.2)

variable {known : PeerRecord → Prop} {arrives : Message → Prop} {after : Engine}

theorem Step.sound (step : Step known arrives engine after) (sound : Sound settings owner engine) :
    Sound settings owner after := by
  cases step with
  | seed record now dice _ => exact sound.seed record now dice
  | older => exact sound.withCache (growOlder_wellFormed sound.cache) rfl
  | accept now reply dice _ => exact sound.accept now reply dice
  | retried => exact sound.withCache sound.cache (.refl _)
  | failed => exact sound.withCache sound.cache (.refl _)
  | answer own now request dice _ => exact sound.answer own now request dice

theorem Reached.sound (reached : Reached known arrives settings owner engine) :
    Sound settings owner engine := by
  induction reached with
  | start algorithm now => exact sound_start algorithm settings owner now
  | step _ step ih => exact step.sound ih

end Sound

end Overlay.Engine
