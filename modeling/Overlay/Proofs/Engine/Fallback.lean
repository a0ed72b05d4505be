import Mathlib.Logic.Relation
import Overlay.Proofs.Circulation
import Overlay.Proofs.Peer

/-!
Who is offered for a second attempt.

An engine keeps those that answered beside its cache. Each is kept with the time that its copy has
from its answer on, but nothing ever asks whether that time is up: those that are kept change with
a reply, and at no other time (`fallback_unchanged`). So what is sure of a peer that is offered is
that it answered once (`fallback_answered`). It did so lately only where that is shorter ago than a
copy lives, which an engine that hears from nobody does not see to (`stale_offered`).
-/

set_option autoImplicit false

namespace Overlay.Engine

open Chance PeerCache

variable {engine : Engine}

/-- A reply keeps its sender with a new copy, and nobody else who was not kept before. -/
theorem accept_keeps (now : Timestamp) (reply : Message) :
    (engine.accept now reply).Ensures fun after =>
      ∀ pool, after.fallback = some pool → ∀ copy ∈ pool.entries,
        copy = engine.fresh reply.sender now ∨
          ∃ before, engine.fallback = some before ∧ copy ∈ before.entries := by
  refine (engine.learn_frame now reply.entries).bind fun learned frame => ?_
  obtain ⟨cache, rfl⟩ := frame
  refine (keepFallback_origin _ now reply.sender).bind fun kept both => ?_
  exact (ensures_pure _ _).mpr both.2

namespace Course

/-- A reply is taken in. -/
def accepted (now : Course) (reply : Message) (dice : Dice) : Course :=
  { now with
    engine := (now.engine.accept now.clock reply dice).1, mergedAt := now.clock, seeds := [] }

/-- The exchanges that went well so far. -/
def exchanges (now : Course) : Nat := now.engine.tally.exchanges

variable {before now after : Course}

theorem exchanges_accepted (now : Course) (reply : Message) (dice : Dice) :
    (now.accepted reply dice).exchanges = now.exchanges + 1 :=
  congrArg Tally.exchanges (now.engine.accept_tally now.clock reply dice)

/-- What never changes as time goes on, and what only grows. -/
structure Onward (before now : Course) : Prop where
  clock : before.clock ≤ now.clock
  settings : now.engine.settings = before.engine.settings
  exchanges : before.exchanges ≤ now.exchanges

theorem Onward.refl (now : Course) : Onward now now := ⟨UInt64.le_refl _, rfl, Nat.le_refl _⟩

theorem Onward.trans (first : Onward before now) (second : Onward now after) :
    Onward before after where
  clock := UInt64.le_trans first.clock second.clock
  settings := second.settings.trans first.settings
  exchanges := Nat.le_trans first.exchanges second.exchanges

theorem onward_accepted (now : Course) (reply : Message) (dice : Dice) :
    Onward now (now.accepted reply dice) where
  clock := UInt64.le_refl _
  settings := (now.engine.accept_origin now.clock reply dice).settings
  exchanges := by
    rw [exchanges_accepted]
    exact Nat.le_succ _

/-- What leaves alone those that are kept for second attempts. -/
structure Keeps (now after : Course) : Prop where
  onward : Onward now after
  exchanges : after.exchanges = now.exchanges
  fallback : after.engine.fallback = now.engine.fallback

/-- Whatever happens is either a reply that is taken in, or leaves alone those that are kept. -/
theorem Step.reply_or_keeps (step : Step now after) :
    (∃ reply dice, after = now.accepted reply dice) ∨ Keeps now after := by
  cases step with
  | pass onward => exact .inr ⟨⟨onward, rfl, Nat.le_refl _⟩, rfl, rfl⟩
  | seed record asked dice _ _ =>
      obtain ⟨⟨cache, seeded⟩, _⟩ := now.engine.seed_origin record asked dice
      rw [seeded]
      exact .inr ⟨⟨UInt64.le_refl _, rfl, Nat.le_refl _⟩, rfl, rfl⟩
  | older => exact .inr ⟨⟨UInt64.le_refl _, rfl, Nat.le_refl _⟩, rfl, rfl⟩
  | accept reply dice => exact .inl ⟨reply, dice, rfl⟩
  | retried => exact .inr ⟨⟨UInt64.le_refl _, rfl, Nat.le_refl _⟩, rfl, rfl⟩
  | failed => exact .inr ⟨⟨UInt64.le_refl _, rfl, Nat.le_refl _⟩, rfl, rfl⟩
  | answer own request dice =>
      obtain ⟨cache, tally, frame⟩ := now.engine.answer_frame own now.clock request dice
      have counted := congrArg Tally.exchanges (now.engine.answer_tally own now.clock request dice)
      have same : tally.exchanges = now.engine.tally.exchanges := by
        rw [frame] at counted
        exact counted
      rw [frame]
      exact .inr ⟨⟨UInt64.le_refl _, rfl, Nat.le_of_eq same.symm⟩, same, rfl⟩

theorem Step.onward (step : Step now after) : Onward now after := by
  rcases step.reply_or_keeps with ⟨reply, dice, rfl⟩ | keeps
  · exact onward_accepted now reply dice
  · exact keeps.onward

theorem onward_of_run (run : Relation.ReflTransGen Step before now) : Onward before now := by
  induction run with
  | refl => exact .refl before
  | tail _ step ih => exact ih.trans step.onward

/-- As long as no exchange goes well, those that are kept stay the same, however late it gets. -/
theorem fallback_unchanged (run : Relation.ReflTransGen Step before now)
    (none_well : now.exchanges = before.exchanges) :
    now.engine.fallback = before.engine.fallback := by
  induction run with
  | refl => rfl
  | @tail middle now run step ih =>
      have least := (onward_of_run run).exchanges
      rcases step.reply_or_keeps with ⟨reply, dice, rfl⟩ | keeps
      · rw [exchanges_accepted] at none_well
        omega
      · exact keeps.fallback.trans (ih (keeps.exchanges.symm.trans none_well))

/-- A copy is kept of a peer that answered at a time: the reply was taken in then, and the copy
lives from then on. -/
structure KeptSince (now : Course) (copy : Entry) (answered : Timestamp) : Prop where
  reply : ∃ before reply dice, Reached before ∧ before.clock = answered ∧
    copy.record = reply.sender ∧ Relation.ReflTransGen Step (before.accepted reply dice) now
  past : answered ≤ now.clock
  expiry : copy.expiresAt = answered.plus now.engine.settings.entryLifetime

theorem keptSince_accepted (reached : Reached now) (reply : Message) (dice : Dice) :
    (now.accepted reply dice).KeptSince (now.engine.fresh reply.sender now.clock) now.clock where
  reply := ⟨now, reply, dice, reached, rfl, rfl, .refl⟩
  past := UInt64.le_refl _
  expiry := by
    rw [(onward_accepted now reply dice).settings]
    rfl

theorem KeptSince.step {copy : Entry} {answered : Timestamp} (kept : now.KeptSince copy answered)
    (step : Step now after) : after.KeptSince copy answered where
  reply := by
    obtain ⟨before, reply, dice, reached, time, sender, run⟩ := kept.reply
    exact ⟨before, reply, dice, reached, time, sender, run.tail step⟩
  past := Timestamp.le_trans kept.past step.onward.clock
  expiry := by
    rw [step.onward.settings]
    exact kept.expiry

/-- Whoever is kept has answered. -/
theorem Reached.kept (reached : Reached now) : ∀ pool, now.engine.fallback = some pool →
    ∀ copy ∈ pool.entries, ∃ answered, now.KeptSince copy answered := by
  induction reached with
  | start algorithm settings owner clock =>
      intro pool kept copy held
      have empty : pool.entries = [] := by
        simp only [Course.start, Engine.start, Option.ite_none_right_eq_some,
          Option.some.injEq] at kept
        obtain ⟨_, rfl⟩ := kept
        rfl
      rw [empty] at held
      cases held
  | @step now after reached step ih =>
      intro pool kept copy held
      rcases step.reply_or_keeps with ⟨reply, dice, rfl⟩ | keeps
      · rcases now.engine.accept_keeps now.clock reply dice pool kept copy held with
          rfl | ⟨former, same, before⟩
        · exact ⟨now.clock, keptSince_accepted reached reply dice⟩
        · obtain ⟨answered, since⟩ := ih former same copy before
          exact ⟨answered, since.step step⟩
      · rw [keeps.fallback] at kept
        obtain ⟨answered, since⟩ := ih pool kept copy held
        exact ⟨answered, since.step step⟩

/-- A peer is kept with a copy from its answer, whose time is up once a copy's life has passed since
then. -/
def Answered (now : Course) (record : PeerRecord) : Prop :=
  ∃ pool, now.engine.fallback = some pool ∧ ∃ copy ∈ pool.entries, copy.record = record ∧
    ∃ answered, now.KeptSince copy answered ∧
      (copy.isExpired now.clock ↔
        answered.plus now.engine.settings.entryLifetime ≤ now.clock)

/-- A peer is kept with a copy whose time is not up. -/
def Recent (now : Course) (record : PeerRecord) : Prop :=
  ∃ pool, now.engine.fallback = some pool ∧ ∃ copy ∈ pool.entries, copy.record = record ∧
    ¬ copy.isExpired now.clock

/-- Whatever has happened, the peers that an engine names as those that answered lately, and the one
that it turns to in a second attempt, did answer, at a time that is not to come. Their copies are
over once a copy's life has passed since then. They are offered nevertheless: until another exchange
goes well, those that are kept stay the same. -/
theorem fallback_answered (reached : Reached now) :
    (∀ record ∈ now.engine.fallbackNodes, now.Answered record) ∧
    (∀ failed, (now.engine.fallbackTarget failed).Ensures fun found =>
      ∀ record, found = some record → now.Answered record) ∧
    ∀ later, Relation.ReflTransGen Step now later → later.exchanges = now.exchanges →
      later.engine.fallback = now.engine.fallback := by
  have answered (record : PeerRecord) (offered : record ∈ now.engine.fallbackNodes) :
      now.Answered record := by
    obtain ⟨pool, kept, copy, held, same⟩ := now.engine.mem_fallbackNodes offered
    obtain ⟨answered, since⟩ := reached.kept pool kept copy held
    refine ⟨pool, kept, copy, held, same, answered, since, ?_⟩
    rw [Entry.isExpired, decide_eq_true_iff, since.expiry]
  refine ⟨answered, fun failed => ?_, fun later run none_well => fallback_unchanged run none_well⟩
  exact (now.engine.fallbackTarget_origin failed).mono fun found named record same =>
    answered record (named record same)

section Forgotten

/-- An engine that heard from a peer once, and from nobody since, for as long as a copy lives. -/
def forgotten : Course :=
  let reply : Message :=
    { sender := .numbered 1, receiver := .numbered 0, entries := [.fresh (.numbered 1) ⟨0⟩ 60000]
      isRequest := false, algorithm := "arrg" }
  { (start .arrg .brisk (.ofNat 0) ⟨0⟩).accepted reply .last with clock := ⟨60000⟩ }

theorem reached_forgotten : Reached forgotten :=
  ((Reached.start .arrg .brisk (.ofNat 0) ⟨0⟩).step (.accept _ .last)).step
    (@Step.pass _ ⟨60000⟩ (by decide))

theorem fallback_answered_forgotten : Reached forgotten ∧ forgotten.Answered (.numbered 1) :=
  ⟨reached_forgotten, (fallback_answered reached_forgotten).1 _ (by decide +kernel)⟩

/-- Its time is up, but the peer is named among those that answered lately, and turned to. -/
theorem stale_offered :
    (¬ ∀ now, Reached now → ∀ record ∈ now.engine.fallbackNodes, now.Recent record) ∧
    ¬ ∀ now, Reached now → ∀ failed, (now.engine.fallbackTarget failed).Ensures fun found =>
      ∀ record, found = some record → now.Recent record := by
  have expired : ∀ pool ∈ forgotten.engine.fallback, ∀ copy ∈ pool.entries,
      copy.isExpired forgotten.clock := by decide +kernel
  have stale (record : PeerRecord) : ¬ forgotten.Recent record := by
    rintro ⟨pool, kept, copy, held, _, live⟩
    exact live (expired pool kept copy held)
  constructor
  · intro always
    exact stale (.numbered 1) (always forgotten reached_forgotten _ (by decide +kernel))
  · intro always
    have chosen : (forgotten.engine.fallbackTarget (.ofNat 2) .last).1 = some (.numbered 1) := by
      decide +kernel
    exact stale _ (always forgotten reached_forgotten (.ofNat 2) .last _ chosen)

end Forgotten

end Course

end Overlay.Engine
