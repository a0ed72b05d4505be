import Mathlib.Data.List.Induction
import Overlay.Proofs.Program.Transport
import Overlay.Proofs.Wire.Canonical

/-!
Streams of frames.

A stream tells by itself where each of its frames ends. Whoever reads it gets the values back that
were written into it, and from a stream that was cut just those that arrived whole
(`frames_selfDelimiting`). A node reads frames from its connections in no other way
(`keeps_receiveFrame`).
-/

set_option autoImplicit false

namespace Overlay.Wire

variable {α : Type}

/-- Reading one frame after another gives some values and leaves some bytes behind. -/
inductive Reads (layout : Layout α) (limit : Nat) : Bytes → List α → Bytes → Prop
  | none (bytes : Bytes) : Reads layout limit bytes [] bytes
  | more {bytes rest left : Bytes} {value : α} {values : List α}
      (first : readFrame layout limit bytes = (.ok value, some rest))
      (others : Reads layout limit rest values left) :
      Reads layout limit bytes (value :: values) left

/-- The values that are written into a stream, which refuses those that are too large. -/
def accepted (layout : Layout α) (limit : Nat) (values : List α) : List α :=
  values.filter fun value => (encodeFrame layout value limit).isOk

/-- All frames of some values. -/
def frames (layout : Layout α) (values : List α) : Bytes := values.flatMap (frame layout)

section Frames

variable {layout : Layout α} {seen : α → α} {limit : Nat} {value : α} {rest : Bytes}

theorem mem_accepted {values : List α} (member : value ∈ accepted layout limit values) :
    (layout.write value).length ≤ limit ∧ Fits layout value := by
  have taken := (List.mem_filter.mp member).2
  cases encoded : encodeFrame layout value limit with
  | error fault =>
      rw [encoded] at taken
      cases taken
  | ok bytes => exact (encodeFrame_eq_ok.mp encoded).2

theorem encodeFrame_error {fault : WireFault}
    (refused : encodeFrame layout value limit = .error fault) :
    fault = .tooLarge (layout.write value).length limit := by
  by_cases large : limit < (layout.write value).length ∨ UInt32.size ≤ (layout.write value).length
  · rw [encodeFrame, encodeBody, if_pos large] at refused
    cases refused
    rfl
  · rw [encodeFrame, encodeBody, if_neg large] at refused
    cases refused

/-- What happens to a stream when one more value is written. -/
theorem writeFrames_concat (layout : Layout α) (limit : Nat) (before : List α) (value : α) :
    writeFrames layout limit (before ++ [value]) =
      match encodeFrame layout value limit with
      | .ok bytes =>
        let stream := (writeFrames layout limit before).2 ++ bytes
        ((writeFrames layout limit before).1 ++ [.ok stream.length], stream)
      | .error fault => ((writeFrames layout limit before).1 ++ [.error fault],
        (writeFrames layout limit before).2) := by
  rw [writeFrames, List.foldl_append]
  rfl

/-- A stream consists of the frames of the accepted values, in their order. -/
theorem writeFrames_stream (layout : Layout α) (limit : Nat) (values : List α) :
    (writeFrames layout limit values).2 = frames layout (accepted layout limit values) := by
  induction values using List.reverseRecOn with
  | nil => rfl
  | append_singleton before value ih =>
      rw [writeFrames_concat, accepted, List.filter_append, frames, List.flatMap_append]
      cases encoded : encodeFrame layout value limit with
      | error fault =>
          have refused : [value].filter
              (fun value => (encodeFrame layout value limit).isOk) = [] := by
            rw [List.filter_cons_of_neg (by simp [encoded, Except.isOk, Except.toBool])]
            rfl
          rw [refused, List.flatMap_nil, List.append_nil]
          exact ih
      | ok bytes =>
          have taken : [value].filter
              (fun value => (encodeFrame layout value limit).isOk) = [value] := by
            rw [List.filter_cons_of_pos (by simp [encoded, Except.isOk, Except.toBool])]
            rfl
          rw [taken, List.flatMap_singleton, ← (encodeFrame_eq_ok.mp encoded).1]
          exact congrArg (· ++ bytes) ih

theorem length_frame (layout : Layout α) (value : α) :
    (frame layout value).length = 4 + (layout.write value).length := by
  rw [frame, List.length_append, length_highestFirst]

theorem announced (fits : Fits layout value) :
    ofHighestFirst (highestFirst 4 (layout.write value).length) = (layout.write value).length :=
  ofHighestFirst_highestFirst fits

theorem readFrame_frame (faithful : layout.Faithful seen)
    (small : (layout.write value).length ≤ limit) (fits : Fits layout value) :
    readFrame layout limit (frame layout value ++ rest) = (.ok (seen value), some rest) := by
  rw [readFrame, frame, List.append_assoc, takeBytes?_append _ (length_highestFirst 4 _)]
  simp only [announced fits, if_neg (Nat.not_lt.mpr small)]
  rw [takeBytes?_append rest rfl]
  simp only [decodeBody_write faithful fits]

theorem takeBytes?_short {count : Nat} {bytes : Bytes} (short : bytes.length < count) :
    takeBytes? count bytes = none := by
  rw [takeBytes?, if_pos (by rw [List.length_take]; omega)]

/-- Nothing can be read from a frame that was cut. -/
theorem readFrame_short {bytes : Bytes} (fits : Fits layout value)
    (small : (layout.write value).length ≤ limit) (early : bytes <+: frame layout value)
    (short : bytes.length < (frame layout value).length) :
    ∃ fault, readFrame layout limit bytes = (.error fault, none) ∧ fault.isEndOfStream := by
  rw [readFrame]
  by_cases header : bytes.length < 4
  · rw [takeBytes?_short header]
    exact ⟨_, rfl, rfl⟩
  · obtain ⟨part, rfl⟩ : ∃ part, bytes = highestFirst 4 (layout.write value).length ++ part := by
      have taken := List.prefix_iff_eq_take.mp early
      rw [frame, List.take_append, List.take_of_length_le] at taken
      · exact ⟨_, taken⟩
      · rw [length_highestFirst]
        omega
    have missing : part.length < (layout.write value).length := by
      rw [length_frame, List.length_append, length_highestFirst] at short
      omega
    rw [takeBytes?_append part (length_highestFirst 4 _)]
    simp only [announced fits, if_neg (Nat.not_lt.mpr small), takeBytes?_short missing]
    exact ⟨_, rfl, rfl⟩

/-- A length beyond the limit is refused before anything else is read. -/
theorem readFrame_oversized {header : Bytes} (four : header.length = 4)
    (large : limit < ofHighestFirst header) : readFrame layout limit (header ++ rest) =
      (.error (.tooLarge (ofHighestFirst header) limit), some rest) := by
  rw [readFrame, takeBytes?_append rest four]
  simp only [if_pos large]

/-- The frames of some values, cut anywhere, are read up to the last one that is whole. -/
theorem reads_take (faithful : layout.Faithful seen) {values : List α}
    (sound : ∀ value ∈ values, (layout.write value).length ≤ limit ∧ Fits layout value)
    (place : Nat) : ∃ count left,
      Reads layout limit ((frames layout values).take place) ((values.take count).map seen) left ∧
      (frames layout (values.take count)).length ≤ place ∧
      (count < values.length → place < (frames layout (values.take (count + 1))).length) ∧
      ∃ fault, readFrame layout limit left = (.error fault, none) ∧ fault.isEndOfStream := by
  induction values generalizing place with
  | nil => exact ⟨0, _, .none _, Nat.zero_le place, nofun, _, by rw [frames]; simp; rfl, rfl⟩
  | cons value values ih =>
      obtain ⟨⟨small, fits⟩, others⟩ := List.forall_mem_cons.mp sound
      have whole : frames layout (value :: values) = frame layout value ++ frames layout values :=
        List.flatMap_cons
      by_cases within : (frame layout value).length ≤ place
      · obtain ⟨count, left, reads, covered, next, fault⟩ :=
          ih others (place - (frame layout value).length)
        have part (more : Nat) : frames layout ((value :: values).take (more + 1)) =
            frame layout value ++ frames layout (values.take more) := List.flatMap_cons
        refine ⟨count + 1, left, ?_, ?_, fun further => ?_, fault⟩
        · rw [whole, List.take_append, List.take_of_length_le within, List.take_succ_cons,
            List.map_cons]
          exact .more (readFrame_frame faithful small fits) reads
        · rw [part, List.length_append]
          omega
        · rw [List.length_cons] at further
          have beyond := next (by omega)
          rw [part, List.length_append]
          omega
      · have early : (frames layout (value :: values)).take place <+: frame layout value := by
          rw [whole, List.take_append_of_le_length (by omega)]
          exact List.take_prefix place _
        have short : ((frames layout (value :: values)).take place).length <
            (frame layout value).length := by
          rw [List.length_take]
          omega
        refine ⟨0, _, .none _, Nat.zero_le place, fun _ => ?_,
          readFrame_short fits small early short⟩
        rw [List.take_succ_cons, List.take_zero, frames, List.flatMap_singleton]
        omega

/-- Whole frames are read to the last byte. -/
theorem reads_frames (faithful : layout.Faithful seen) {values : List α}
    (sound : ∀ value ∈ values, (layout.write value).length ≤ limit ∧ Fits layout value) :
    Reads layout limit (frames layout values) (values.map seen) [] := by
  induction values with
  | nil => exact .none []
  | cons value values ih =>
      obtain ⟨⟨small, fits⟩, others⟩ := List.forall_mem_cons.mp sound
      rw [frames, List.flatMap_cons, List.map_cons]
      exact .more (readFrame_frame faithful small fits) (ih others)

end Frames

section Connection

open Attempt (receive receiveFrame)
open Surroundings

variable {σ : Type}

/-- A node to which some bytes come over a connection, and nothing after them. -/
def incoming : Surroundings σ (σ × Bytes) where
  look := Prod.fst
  leave now state := (state, now.2)
  Answers
    | .read _ count _, now, .bytes content, after =>
      takeBytes? count now.2 = some (content, after.2)
    | .read _ count _, now, .ended, _ => takeBytes? count now.2 = none
    | .read .., _, .expired, _ => False
    | _, now, _, after => after.2 = now.2
  Accepts _ _ := True
  Admits _ _ := True

theorem keeps_receive {stream : StreamId} {count : Nat} {fault : StreamFault} {deadline : Limit}
    {now : σ × Bytes} {post : Except Failure Bytes → σ × Bytes → Prop}
    (holds : ∀ content after, takeBytes? count now.2 = some (content, after.2) →
      post (.ok content) after)
    (fails : takeBytes? count now.2 = none → ∀ after,
      post (.error (.wire (.stream fault))) after) :
    incoming.Keeps (receive stream count fault deadline).run post now := by
  refine keeps_run_receive.mpr ⟨trivial, fun reading after answer => ?_⟩
  cases reading with
  | bytes content => exact holds content after answer
  | ended => exact fails answer after
  | expired => exact answer.elim

/-- A node gets from a connection what is the first frame of the bytes that come, and the same bytes
are left for it to read next. -/
theorem keeps_receiveFrame (layout : Layout α) (stream : StreamId) (limit : Nat)
    (deadline : Limit) (now : σ × Bytes) :
    incoming.Keeps (receiveFrame layout stream limit deadline).run (fun result after =>
      result = (readFrame layout limit now.2).1.mapError Failure.wire ∧
        ∀ rest, (readFrame layout limit now.2).2 = some rest → after.2 = rest) now := by
  refine keeps_run_receiveFrame
    (fun header middle => takeBytes? 4 now.2 = some (header, middle.2)) ?_ ?_ ?_
  · refine keeps_receive (fun _ _ taken => taken) fun missing after => ?_
    simp only [readFrame, missing]
    exact ⟨rfl, nofun⟩
  · intro header middle taken large
    simp only [readFrame, taken, if_pos large]
    exact ⟨rfl, fun _ => Option.some.inj⟩
  · intro header middle taken small
    simp only [readFrame, taken, if_neg (Nat.not_lt_of_le small)]
    refine keeps_receive (fun body after taken => ?_) fun missing after => ?_
    · simp only [taken]
      exact ⟨trivial, fun _ => Option.some.inj⟩
    · simp only [missing]
      exact ⟨rfl, nofun⟩

end Connection

/-- A stream of frames can be taken apart again, wherever it ends. -/
structure SelfDelimiting (layout : Layout α) (seen : α → α) : Prop where
  /-- A value is refused because it is too large, and that adds nothing to the stream. -/
  refused : ∀ limit before value fault, encodeFrame layout value limit = .error fault →
    fault = .tooLarge (layout.write value).length limit ∧
      writeFrames layout limit (before ++ [value]) =
        ((writeFrames layout limit before).1 ++ [.error fault],
          (writeFrames layout limit before).2)
  /-- The accepted values are read in their order, and no byte is left. -/
  whole : ∀ limit wider values, limit ≤ wider →
    Reads layout wider (writeFrames layout limit values).2
      ((accepted layout limit values).map seen) []
  /-- From a stream that was cut, as many values are read as have all their bytes before the cut.
  Then the stream is at its end. -/
  cut : ∀ limit wider values place, limit ≤ wider → ∃ count left,
    Reads layout wider ((writeFrames layout limit values).2.take place)
      (((accepted layout limit values).take count).map seen) left ∧
    (frames layout ((accepted layout limit values).take count)).length ≤ place ∧
    (count < (accepted layout limit values).length →
      place < (frames layout ((accepted layout limit values).take (count + 1))).length) ∧
    ∃ fault, readFrame layout wider left = (.error fault, none) ∧ fault.isEndOfStream
  /-- A length beyond the limit of the reader costs four bytes and nothing else. -/
  oversized : ∀ limit header rest, header.length = 4 → limit < ofHighestFirst header →
    readFrame layout limit (header ++ rest) =
      (.error (.tooLarge (ofHighestFirst header) limit), some rest)

theorem Layout.Faithful.selfDelimiting {layout : Layout α} {seen : α → α}
    (faithful : layout.Faithful seen) : SelfDelimiting layout seen where
  refused limit before value fault encoded := by
    refine ⟨encodeFrame_error encoded, ?_⟩
    rw [writeFrames_concat, encoded]
  whole limit wider values within := by
    rw [writeFrames_stream]
    refine reads_frames faithful fun value member => ?_
    obtain ⟨small, fits⟩ := mem_accepted member
    exact ⟨Nat.le_trans small within, fits⟩
  cut limit wider values place within := by
    rw [writeFrames_stream]
    refine reads_take faithful (fun value member => ?_) place
    obtain ⟨small, fits⟩ := mem_accepted member
    exact ⟨Nat.le_trans small within, fits⟩
  oversized _ _ _ := readFrame_oversized

/-- Whatever travels in frames: messages of gossip and records, and likewise lists of copies and
statistics. -/
theorem frames_selfDelimiting :
    SelfDelimiting Layout.message Message.unscoped ∧
      SelfDelimiting Layout.peerRecord PeerRecord.unscoped ∧
      SelfDelimiting Layout.entry.list (List.map Entry.unscoped) ∧
      SelfDelimiting Layout.stats id :=
  ⟨Layout.message_faithful.selfDelimiting, Layout.peerRecord_faithful.selfDelimiting,
    (Layout.entry_faithful.list Layout.entry_positive).selfDelimiting,
    Layout.stats_faithful.selfDelimiting⟩

end Overlay.Wire
