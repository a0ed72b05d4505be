import Overlay.Proofs.Swarm.Reachable
import Overlay.Proofs.Swarm.Schedule

/-!
What becomes of a peer that has fallen silent.

Where all nodes read one clock and keep copies for the same time, no copy outlasts what its peer
said last by more than that time, however often it was passed on. Once the time is over, a peer
leaves every cache that is swept or merged into, and nothing brings it back.
-/

set_option autoImplicit false

namespace Overlay.Swarm

open PeerCache

variable {size : Nat} {timing : Timing} {lifetime : UInt64} {start now later : Swarm size}

/-- The copies that can be found in the caches of a swarm and in the payloads in its streams. -/
inductive Copied (swarm : Swarm size) : Entry → Prop
  | cached {host : Fin size} {engine : Engine} {copy : Entry}
      (runs : engine ∈ (swarm.nodes host).engines) (held : copy ∈ engine.cache.entries) :
      Copied swarm copy
  | told {name : StreamId} {link : Link} {maximum : Nat} {message : Message} {copy : Entry}
      (known : swarm.links name = some link) (tag : link.tag = .gossip)
      (complete : Wire.IsFrame Wire.Layout.message maximum link.sent message)
      (among : copy ∈ message.entries) : Copied swarm copy

theorem Orderly.traced {chronicle : Chronicle} {copy : Entry}
    (orderly : Orderly timing chronicle now) (copied : Copied now copy) :
    Traced timing now.chronicle copy := by
  cases copied with
  | cached runs held => exact ((orderly.nodes _).engines _ runs).cache copy held
  | told known tag complete among =>
      have carries := (orderly.links _ _ known).carries
      exact (truthful_of_isFrame carries tag complete).entries copy among

/-- The copies of a peer that has been silent for too long are over. -/
theorem Traced.expired {chronicle : Chronicle} {copy : Entry} {time : Timestamp}
    (traced : Traced (.shared lifetime) chronicle copy)
    (dead : Dead lifetime chronicle time copy.id) : copy.expiresAt ≤ time := by
  obtain ⟨spoken, said, bound⟩ := traced.dated lifetime rfl
  exact Timestamp.le_trans bound (dead spoken said)

theorem Spares.earlier {chronicle : Chronicle} {early late : Timestamp} {before after : Engine}
    (spares : Spares timing chronicle late before after) (order : timing ≠ .free → early ≤ late) :
    Spares timing chronicle early before after := by
  intro lifetime shared id dead held
  have before : early ≤ late := order (by rw [shared]; nofun)
  exact spares lifetime shared id
    (fun spoken said => Timestamp.le_trans (dead spoken said) before) held

/-- While a peer that has been silent for too long stays silent, no cache takes it in. -/
theorem Sound.run_spares {chronicle : Chronicle} (sound : Sound timing chronicle now)
    (run : Run timing now later) (host : Fin size) (algorithm : Algorithm) :
    Spares timing later.chronicle (now.nodes host).clock ((now.nodes host).engine algorithm)
      ((later.nodes host).engine algorithm) ∧
    ∀ lifetime, timing = .shared lifetime → (now.nodes host).clock ≤ (later.nodes host).clock := by
  induction run with
  | refl => exact ⟨.refl _, fun _ _ => Timestamp.le_refl _⟩
  | @tail middle later run step ih =>
      obtain ⟨spares, order⟩ := ih
      obtain ⟨_, advances⟩ := (sound.run run).1.step step
      have whole (lifetime : UInt64) (shared : timing = .shared lifetime) :
          (now.nodes host).clock ≤ (later.nodes host).clock :=
        Timestamp.le_trans (order lifetime shared) (advances.clock lifetime shared host)
      refine ⟨(spares.mono advances.grows).trans ((advances.engines host algorithm).earlier ?_),
        whole⟩
      intro common
      cases timing with
      | free => exact absurd rfl common
      | shared lifetime => exact whole lifetime rfl

/-- However often a copy was passed on, it does not outlast what its peer said last by more than the
common lifetime. A cache that is swept, or that merges copies from anywhere in the swarm, does not
hold a peer that has been silent for so long; and while the peer stays silent, a cache holds it only
if it has held it all along and nothing was merged into it. -/
theorem silent_dies_out (begins : Begins (.shared lifetime) start)
    (run : Run (.shared lifetime) start now) :
    (∀ copy, Copied now copy → ∃ spoken, now.chronicle.spoken copy.id = some spoken ∧
      copy.expiresAt ≤ spoken.plus lifetime) ∧
    (∀ id host, Dead lifetime now.chronicle (now.nodes host).clock id →
      ∀ engine ∈ (now.nodes host).engines, ∀ dice,
        id ∉ ids (engine.cache.cleanup (now.nodes host).clock dice).1.entries ∧
        ∀ batch, (∀ copy ∈ batch, Copied now copy) →
          id ∉ ids (engine.cache.addAll (now.nodes host).clock batch dice).1.entries) ∧
    ∀ later, Run (.shared lifetime) now later → ∀ id host algorithm,
      Dead lifetime later.chronicle (now.nodes host).clock id →
      id ∈ ids ((later.nodes host).engine algorithm).cache.entries →
      id ∈ ids ((now.nodes host).engine algorithm).cache.entries ∧
        ((later.nodes host).engine algorithm).merges =
          ((now.nodes host).engine algorithm).merges := by
  have sound := (begins.sound.run run).1
  refine ⟨fun copy copied => (sound.traced copied).dated lifetime rfl,
    fun id host dead engine runs dice => ⟨fun held => ?_, fun batch brought held => ?_⟩,
    fun later run id host algorithm dead held => ?_⟩
  · obtain ⟨copy, stored, rfl⟩ := mem_ids.mp held
    obtain ⟨before, live⟩ := engine.cache.cleanup_origin _ dice copy stored
    exact Timestamp.not_lt.mpr ((sound.traced (.cached runs before)).expired dead) live
  · obtain ⟨copy, stored, rfl⟩ := mem_ids.mp held
    obtain ⟨origin, live⟩ := engine.cache.addAll_origin _ batch dice copy stored
    have copied : Copied now copy := by
      rcases origin with came | before
      · exact brought copy came
      · exact .cached runs before
    exact Timestamp.not_lt.mpr ((sound.traced copied).expired dead) live
  · exact (sound.run_spares run host algorithm).1 lifetime rfl id dead held

/-- One node has taken in the other one, which then stays silent until its copy is swept. -/
theorem silent_dies_out_pair : ∃ now, Run (.shared Settings.brisk.entryLifetime) pair now ∧
    ∃ engine ∈ (now.nodes 0).engines, PeerId.ofNat 1 ∈ ids engine.cache.entries ∧
      ∀ dice, PeerId.ofNat 1 ∉
        ids (engine.cache.cleanup (now.nodes 0).clock dice).1.entries := by
  have played : (pair.play (.shared Settings.brisk.entryLifetime)
      (acquaint ++ [.pass ⟨60000⟩])).any (fun now => decide
        ((∃ engine ∈ (now.nodes 0).engines, PeerId.ofNat 1 ∈ ids engine.cache.entries) ∧
        ∀ spoken ∈ now.chronicle.spoken (.ofNat 1),
          spoken.plus Settings.brisk.entryLifetime ≤ (now.nodes 0).clock)) := by
    decide +kernel
  obtain ⟨now, run, facts⟩ := Option.any_eq_true _ _ |>.mp played
  obtain ⟨⟨engine, runs, held⟩, dead⟩ := of_decide_eq_true facts
  have begins := begins_pair (.shared Settings.brisk.entryLifetime) fun _ same => by
    cases same
    rfl
  have dies := (silent_dies_out begins (run_play run)).2.1 (.ofNat 1) 0 dead engine runs
  exact ⟨now, run_play run, engine, runs, held, fun dice => (dies dice).1⟩

end Overlay.Swarm
