import Mathlib.Algebra.GroupWithZero.Nat
import Mathlib.Algebra.Order.BigOperators.Group.List
import Mathlib.Algebra.Order.Group.Nat
import Overlay.Proofs.Engine.Life
import Overlay.Proofs.PeerCache.Sampling
import Overlay.Proofs.Program.Play
import Overlay.Proofs.Wire.Stream

/-!
How large the messages of an engine are.

A message is as large as its parts: what every message to a receiver takes, the copy of the own
node, and the copies that were drawn from the cache. The limit on messages is checked for each
message alone, and nothing limits a copy that comes in but the message that brings it. So an engine
is sure to send what it has taken in only where the limit leaves room for as many copies as a
message tells of, each as large as the largest that was taken in (`messages_fit`).
-/

set_option autoImplicit false

namespace Overlay

/-- The number of bytes that a copy of a record takes in a message. -/
def PeerRecord.weight (record : PeerRecord) : Nat :=
  (Wire.Layout.peerRecord.write record).length + 12

def Entry.weight (entry : Entry) : Nat := entry.record.weight

namespace Wire.Layout

theorem length_entry (copy : Entry) : (entry.write copy).length = copy.weight := by
  have stamp : ((word32.pair timestamp).write (copy.age, copy.expiresAt)).length = 12 := rfl
  calc
    (entry.write copy).length = (peerRecord.write copy.record).length +
        ((word32.pair timestamp).write (copy.age, copy.expiresAt)).length := List.length_append
    _ = copy.weight := by rw [stamp, Entry.weight, PeerRecord.weight]

theorem length_list {α : Type} (layout : Layout α) (values : List α) :
    (layout.list.write values).length =
      8 + (values.map fun value => (layout.write value).length).sum := by
  have count : (word64.write (UInt64.ofNat values.length)).length = 8 := length_lowestFirst 8 _
  change (word64.write (UInt64.ofNat values.length) ++ values.flatMap layout.write).length = _
  rw [List.length_append, count, List.length_flatMap]

/-- A message is as large as the copies in it and what it takes without any. -/
theorem length_message (sender receiver : PeerRecord) (entries : List Entry) (isRequest : Bool)
    (algorithm : String) :
    (message.write { sender, receiver, entries, isRequest, algorithm }).length =
      (peerRecord.write sender).length + (peerRecord.write receiver).length +
        (text.write algorithm).length + 9 + (entries.map (·.weight)).sum := by
  change (peerRecord.write sender ++ (peerRecord.write receiver ++
    (entry.list.write entries ++ (bool.write isRequest ++ text.write algorithm)))).length = _
  have flag : (bool.write isRequest).length = 1 := rfl
  simp only [List.length_append, length_list, length_entry, flag]
  omega

end Wire.Layout

namespace Engine

open Chance PeerCache Wire

variable {settings : Settings} {owner : PeerId} {engine : Engine}

/-- What every message to a receiver takes: all of it but the copies of cached peers. -/
def overhead (engine : Engine) (own receiver : PeerRecord) : Nat :=
  (Layout.message.write
    { sender := own, receiver, entries := [engine.fresh own ⟨0⟩], isRequest := true
      algorithm := engine.algorithm.name }).length

/-- What becomes of a message of so many bytes on its way to a stream. -/
def Charged (limit : Nat) (message : Message) (total : Nat) : Prop :=
  encodeFrame Layout.message message limit =
    if total ≤ limit ∧ total < UInt32.size then .ok (frame Layout.message message)
    else .error (.tooLarge total limit)

theorem charged_length (limit : Nat) (message : Message) :
    Charged limit message (Layout.message.write message).length := by
  rw [Charged]
  split
  · next small => exact encodeFrame_eq_ok.mpr ⟨rfl, small.1, small.2⟩
  · next large =>
      cases encoded : encodeFrame Layout.message message limit with
      | error fault => rw [encodeFrame_error encoded]
      | ok bytes =>
          obtain ⟨_, small, fits⟩ := encodeFrame_eq_ok.mp encoded
          exact absurd ⟨small, fits⟩ large

/-- A message tells of few cached peers, and is as large as they make it. -/
theorem message_charged (engine : Engine) (own receiver : PeerRecord) (now : Timestamp)
    (isRequest : Bool) (limit : Nat) :
    (engine.message own now receiver isRequest).Ensures fun message =>
      ∃ peers, message.entries = peers ++ [engine.fresh own now] ∧
        (∀ copy ∈ peers, copy ∈ engine.cache.entries) ∧
        peers.length ≤ engine.settings.sendSize.toNat - 1 ∧
        Charged limit message (engine.overhead own receiver + (peers.map (·.weight)).sum) := by
  have drawn : (engine.cache.sample (engine.settings.sendSize.toNat - 1)).Ensures fun peers =>
      (∀ copy ∈ peers, copy ∈ engine.cache.entries) ∧
        peers.length ≤ engine.settings.sendSize.toNat - 1 :=
    fun dice => ⟨engine.cache.sample_origin _ dice,
      Nat.le_trans (Nat.le_of_eq (engine.cache.sample_length _ dice)) (Nat.min_le_left _ _)⟩
  have told : (engine.payload own now).Ensures fun entries => ∃ peers,
      entries = peers ++ [engine.fresh own now] ∧
        (∀ copy ∈ peers, copy ∈ engine.cache.entries) ∧
        peers.length ≤ engine.settings.sendSize.toNat - 1 :=
    drawn.bind fun peers both => (ensures_pure _ _).mpr ⟨peers, rfl, both⟩
  refine told.bind fun entries split => (ensures_pure _ _).mpr ?_
  obtain ⟨peers, rfl, cached, few⟩ := split
  refine ⟨peers, rfl, cached, few, ?_⟩
  have total := charged_length limit
    ⟨own, receiver, peers ++ [engine.fresh own now], isRequest, engine.algorithm.name⟩
  have self : (engine.fresh own now).weight = (engine.fresh own ⟨0⟩).weight := rfl
  have sum : (Layout.message.write ⟨own, receiver, peers ++ [engine.fresh own now], isRequest,
      engine.algorithm.name⟩).length =
      engine.overhead own receiver + (peers.map (·.weight)).sum := by
    simp only [overhead, Layout.length_message, List.map_append, List.sum_append, List.map_cons,
      List.map_nil, List.sum_cons, List.sum_nil, self]
    omega
  rwa [sum] at total

section Light

variable {known : PeerRecord → Prop} {arrives : Message → Prop} {share : Nat}
  (seeded : ∀ record, known record → record.weight ≤ share)
  (brought : ∀ message, arrives message → ∀ copy ∈ message.entries, copy.weight ≤ share)

include seeded brought

/-- Every copy in a cache is of a record that came in, and so not larger than those that did. -/
theorem Step.light {after : Engine} (step : Step known arrives engine after)
    (light : ∀ copy ∈ engine.cache.entries, copy.weight ≤ share) :
    ∀ copy ∈ after.cache.entries, copy.weight ≤ share := by
  intro copy held
  cases step with
  | seed record now dice comes =>
      rcases (engine.seed_origin record now dice).2 copy held with rfl | before
      · exact seeded record comes
      · exact light copy before
  | older =>
      obtain ⟨before, stored, rfl⟩ := List.mem_map.mp held
      exact light before stored
  | accept now reply dice came =>
      rcases ((engine.accept_origin now reply dice).cache copy held).1 with new | before
      · exact brought reply came copy new
      · exact light copy before
  | retried => exact light copy held
  | failed => exact light copy held
  | answer own now request dice came =>
      rcases ((engine.answer_origin own now request dice).2 copy held).1 with new | before
      · exact brought request came copy new
      · exact light copy before

theorem Reached.light (reached : Reached known arrives settings owner engine) :
    ∀ copy ∈ engine.cache.entries, copy.weight ≤ share := by
  induction reached with
  | start algorithm now => exact nofun
  | step _ step ih => exact step.light seeded brought ih

end Light

/-- Whatever an engine tells a receiver, in a request or in a reply, is of a kind. -/
def Tells (engine : Engine) (own : PeerRecord) (now : Timestamp) (receiver : PeerRecord)
    (kind : Message → Prop) : Prop :=
  (engine.message own now receiver true).Ensures kind ∧
    ∀ request : Message, request.sender = receiver →
      (engine.answer own now request).Ensures fun answered => kind answered.1

theorem tells_of_message {own receiver : PeerRecord} {now : Timestamp} {kind : Message → Prop}
    (each : ∀ isRequest, (engine.message own now receiver isRequest).Ensures kind) :
    engine.Tells own now receiver kind := by
  refine ⟨each true, ?_⟩
  rintro request rfl
  refine (each false).bind fun reply told => ?_
  exact (ensures_true _).bind fun learned _ => (ensures_pure _ _).mpr told

/-- A request and a reply tell of few cached peers. They are sent where all that is within the
limit, and refused for their size where it is not. Where the limit leaves room for the largest copies
that came in, as many as a message tells of, they are sent whatever is drawn. -/
theorem messages_fit {known : PeerRecord → Prop} {arrives : Message → Prop}
    (reached : Reached known arrives settings owner engine) (own : PeerRecord) (now : Timestamp)
    (receiver : PeerRecord) :
    let limit := settings.maxMessageBytes.toNat
    let count := settings.sendSize.toNat - 1
    (engine.Tells own now receiver fun message => ∃ peers,
      message.entries = peers ++ [engine.fresh own now] ∧
        (∀ copy ∈ peers, copy ∈ engine.cache.entries) ∧ peers.length ≤ count ∧
        Charged limit message (engine.overhead own receiver + (peers.map (·.weight)).sum)) ∧
    ∀ share, (∀ record, known record → record.weight ≤ share) →
      (∀ message, arrives message → ∀ copy ∈ message.entries, copy.weight ≤ share) →
      engine.overhead own receiver + count * share ≤ limit →
      engine.overhead own receiver + count * share < UInt32.size →
      engine.Tells own now receiver fun message =>
        encodeFrame Layout.message message limit = .ok (frame Layout.message message) := by
  intro limit count
  have charged (isRequest : Bool) :=
    engine.message_charged own receiver now isRequest limit
  rw [reached.sound.configured] at charged
  refine ⟨tells_of_message charged, fun share seeded brought room countable => ?_⟩
  refine tells_of_message fun isRequest => (charged isRequest).mono fun message told => ?_
  obtain ⟨peers, _, cached, few, total⟩ := told
  have light : ∀ weight ∈ peers.map (·.weight), weight ≤ share := by
    intro weight charged
    obtain ⟨copy, member, rfl⟩ := List.mem_map.mp charged
    exact reached.light seeded brought copy (cached copy member)
  have shares : (peers.map (·.weight)).sum ≤ count * share := by
    refine (List.sum_le_card_nsmul _ share light).trans ?_
    rw [List.length_map, Nat.nsmul_eq_mul]
    exact Nat.mul_le_mul_right share few
  rw [Charged, if_pos (by omega)] at total
  exact total

section Crowding

/-- A request that tells of one peer with a long name. -/
def wordy (number : Nat) : Message :=
  let told := PeerRecord.fresh (.ofNat number) (.ofNumber number)
    (String.ofList (List.replicate 60 'x'))
  { sender := .numbered number, receiver := .numbered 0, entries := [.fresh told ⟨0⟩ 60000]
    isRequest := true, algorithm := "arrg" }

/-- An engine that was told of two such peers. -/
def burdened (settings : Settings) : Engine :=
  let served := fun (engine : Engine) (request : Message) =>
    (engine.answer (.numbered 0) ⟨0⟩ request .last).1.2
  served (served (start .arrg settings (.ofNat 0) ⟨0⟩) (wordy 1)) (wordy 2)

theorem reached_burdened {known : PeerRecord → Prop} {arrives : Message → Prop}
    (settings : Settings) (first : arrives (wordy 1)) (second : arrives (wordy 2)) :
    Reached known arrives settings (.ofNat 0) (burdened settings) :=
  ((Reached.start .arrg ⟨0⟩).step (.answer _ _ _ _ first)).step (.answer _ _ _ _ second)

theorem messages_fit_burdened :
    let engine := burdened .brisk
    Reached (·.weight ≤ 127) (fun message => ∀ copy ∈ message.entries, copy.weight ≤ 127)
      .brisk (.ofNat 0) engine ∧
    engine.overhead (.numbered 0) (.numbered 3) + 2 * 127 ≤ 65536 ∧
    engine.Tells (.numbered 0) ⟨0⟩ (.numbered 3) fun message =>
      encodeFrame Layout.message message 65536 = .ok (frame Layout.message message) := by
  intro engine
  have reached : Reached (·.weight ≤ 127)
      (fun message => ∀ copy ∈ message.entries, copy.weight ≤ 127) .brisk (.ofNat 0) engine :=
    reached_burdened .brisk (by decide +kernel) (by decide +kernel)
  have room : engine.overhead (.numbered 0) (.numbered 3) + 2 * 127 ≤ 65536 := by decide +kernel
  refine ⟨reached, room, ?_⟩
  exact (messages_fit reached (.numbered 0) ⟨0⟩ (.numbered 3)).2 127 (fun _ => id) (fun _ => id) room
    (Nat.lt_of_le_of_lt room (by decide))

/-- A message came in a frame that was not too large. -/
def Framed (limit : Nat) (message : Message) : Prop :=
  ∃ bytes, IsFrame Layout.message limit bytes message

/-- Settings that leave room for a message about one node and about one more. -/
def narrow : Settings := { Settings.brisk with maxMessageBytes := 400 }

theorem framed_wordy (number : Nat) (small : (Layout.message.write (wordy number)).length ≤ 400) :
    Framed 400 (wordy number) :=
  ⟨_, isFrame_frame Layout.message_faithful small (Nat.lt_of_le_of_lt small (by decide))⟩

/-- Copies that came in one by one are too large together. -/
theorem message_refused : ¬ ∀ (settings : Settings) (own receiver : PeerRecord) (engine : Engine)
    (now : Timestamp), settings.validate = .ok settings →
    Reached (fun _ => False) (Framed settings.maxMessageBytes.toNat) settings own.id engine →
    engine.overhead own receiver ≤ settings.maxMessageBytes.toNat →
    engine.Tells own now receiver fun message =>
      (encodeFrame Layout.message message settings.maxMessageBytes.toNat).isOk := by
  intro always
  have reached : Reached (fun _ => False) (Framed 400) narrow (.ofNat 0) (burdened narrow) :=
    reached_burdened narrow (framed_wordy 1 (by decide +kernel))
      (framed_wordy 2 (by decide +kernel))
  have room : (burdened narrow).overhead (.numbered 0) (.numbered 3) ≤ 400 := by decide +kernel
  have sent := (always narrow (.numbered 0) (.numbered 3) _ ⟨0⟩ rfl reached room).1 .last
  have refused : (encodeFrame Layout.message ((burdened narrow).message (.numbered 0) ⟨0⟩
      (.numbered 3) true .last).1 400).isOk = false := by decide +kernel
  exact Bool.false_ne_true (refused.symm.trans sent)

end Crowding

end Engine

end Overlay
