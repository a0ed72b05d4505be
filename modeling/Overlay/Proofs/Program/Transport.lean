import Overlay.Proofs.Program.Run
import Overlay.Proofs.Wire.Frame

/-!
Streams and time limits, whatever surrounds the program that uses them.

An attempt on a stream makes one request or two, and how it ends depends on the answers alone. So
there is one rule for each of these attempts: it turns what is to be shown of the attempt into what
is to be shown of its requests, and only that is a matter of the surroundings. A frame is read in
two pieces, which `keeps_run_frame` puts together again.
-/

set_option autoImplicit false

namespace Overlay.Surroundings

open Attempt Program
open Wire (Bytes IsFrame Layout Wants)

variable {σ S α : Type} {world : Surroundings σ S} {now : S} {stream : StreamId} {limit : Limit}

theorem keeps_run_limit {activity : Activity} {span : Duration} {outer : Option Limit}
    {post : Except Failure Limit → S → Prop} :
    world.Keeps (Attempt.limit activity span outer).run post now ↔
      world.Keeps Program.now (fun moment after =>
        post (.ok (Limit.within ⟨moment.after span, activity⟩ outer)) after) now := by
  simp only [Attempt.limit, keeps_run_bind, keeps_run_perform, keeps_run_pure]

/-- What is received where reading has ended in some way. -/
def received (fault : StreamFault) (limit : Limit) : Reading → Except Failure Bytes
  | .bytes content => .ok content
  | .ended => .error (.wire (.stream fault))
  | .expired => .error limit.failure

theorem keeps_run_receive {count : Nat} {fault : StreamFault}
    {post : Except Failure Bytes → S → Prop} :
    world.Keeps (receive stream count fault limit).run post now ↔
      world.Keeps (Program.read stream count (some limit.deadline))
        (fun reading after => post (received fault limit reading) after) now := by
  rw [receive, keeps_run_bind, keeps_run_perform]
  refine keeps_congr fun reading after => ?_
  cases reading with
  | bytes content => rfl
  | ended => rfl
  | expired => rfl

theorem keeps_run_receiveByte {post : Except Failure UInt8 → S → Prop} :
    world.Keeps (receiveByte stream limit).run post now ↔
      world.Keeps (receive stream 1 .endInNumber limit).run
        (fun result after => post (result.map (·.headD 0)) after) now := by
  rw [receiveByte, keeps_run_bind]
  refine keeps_congr fun result after => ?_
  cases result with
  | ok content => rfl
  | error failure => rfl

/-- What sending comes to where writing has ended in some way. -/
def sent (limit : Limit) : Writing → Except Failure Unit
  | .written => .ok ()
  | .broken => .error (.wire (.stream .brokenPipe))
  | .expired => .error limit.failure

theorem keeps_run_send {bytes : Bytes} {post : Except Failure Unit → S → Prop} :
    world.Keeps (send stream bytes limit).run post now ↔
      world.Keeps (Program.write stream bytes (some limit.deadline))
        (fun writing after => post (sent limit writing) after) now := by
  rw [send, keeps_run_bind, keeps_run_perform]
  refine keeps_congr fun writing after => ?_
  cases writing with
  | written => rfl
  | broken => rfl
  | expired => rfl

/-- A value is sent as one frame, or it is too large and nothing is sent. -/
theorem keeps_run_sendFrame {layout : Layout α} {value : α} {maximum : Nat}
    {post : Except Failure Unit → S → Prop}
    (encoded : ∀ bytes, Wire.encodeFrame layout value maximum = .ok bytes →
      world.Keeps (send stream bytes limit).run post now)
    (refused : ∀ fault, Wire.encodeFrame layout value maximum = .error fault →
      post (.error (.wire fault)) now) :
    world.Keeps (sendFrame layout stream value maximum limit).run post now := by
  rw [sendFrame]
  split
  · next bytes fits => exact encoded bytes fits
  · next fault large => exact refused fault large

/-- However an attempt ends, its stream is closed after it. -/
theorem keeps_run_closing {attempt : Attempt σ α} {post : Except Failure α → S → Prop} :
    world.Keeps (closing stream attempt).run post now ↔
      world.Keeps attempt.run (fun result after =>
        world.Keeps (Program.close stream) (fun _ closed => post result closed) after) now := by
  rw [closing, ExceptT.run_mk, keeps_bind]
  exact keeps_congr fun result after => keeps_bind (Program.close stream) fun _ => pure result

theorem keeps_run_connected {address : SocketAddress} {tag : Wire.ServiceTag} {patience : Duration}
    {attempt : StreamId → Attempt σ α} {post : Except Failure α → S → Prop} :
    world.Keeps (connected address tag patience limit attempt).run post now ↔
      world.Keeps (Program.connect address tag patience limit.deadline) (fun connecting after =>
        match connecting with
        | .opened stream => world.Keeps (closing stream (attempt stream)).run post after
        | .failed fault => post (.error (.transport fault)) after
        | .expired => post (.error limit.failure) after) now := by
  rw [connected, keeps_run_bind, keeps_run_perform]
  refine keeps_congr fun connecting after => ?_
  cases connecting with
  | opened stream => rfl
  | failed fault => rfl
  | expired => rfl

theorem keeps_run_reporting {event : Failure → Event} {attempt : Attempt σ α}
    {post : Except Failure α → S → Prop} :
    world.Keeps (reporting event attempt).run post now ↔
      world.Keeps attempt.run (fun result after => match result with
        | .ok value => post (.ok value) after
        | .error failure => world.Keeps (Program.report (event failure))
            (fun _ reported => post (.error failure) reported) after) now := by
  rw [reporting, ExceptT.run_mk, keeps_bind]
  refine keeps_congr fun result after => ?_
  cases result with
  | ok value => rfl
  | error failure => rfl

section Frames

variable {layout : Layout α} {maximum : Nat} {post : Except Failure α → S → Prop}

/-- A frame is read in two pieces: a header, and the body that it announces unless that is too
large. -/
theorem keeps_run_receiveFrame (Announced : Bytes → S → Prop)
    (header : world.Keeps (receive stream 4 .endInNumber limit).run (fun result after =>
      match result with
      | .ok header => Announced header after
      | .error failure => post (.error failure) after) now)
    (large : ∀ header after, Announced header after → maximum < Wire.ofHighestFirst header →
      post (.error (.wire (.tooLarge (Wire.ofHighestFirst header) maximum))) after)
    (body : ∀ header middle, Announced header middle → Wire.ofHighestFirst header ≤ maximum →
      world.Keeps (receive stream (Wire.ofHighestFirst header) .endInBlock limit).run
        (fun result after => match result with
          | .ok body => post ((Wire.decodeBody layout body).mapError Failure.wire) after
          | .error failure => post (.error failure) after) middle) :
    world.Keeps (receiveFrame layout stream maximum limit).run post now := by
  rw [receiveFrame, keeps_run_bind]
  refine header.mono fun result middle read => ?_
  cases result with
  | error failure => exact read
  | ok header =>
      refine keeps_run_ite (large header middle read) fun small => ?_
      rw [keeps_run_bind]
      refine (body header middle read (Nat.le_of_not_lt small)).mono fun result after read => ?_
      cases result with
      | error failure => exact read
      | ok body =>
          dsimp only at read ⊢
          cases decoded : Wire.decodeBody layout body with
          | ok value =>
              rw [decoded] at read
              exact read
          | error fault =>
              rw [decoded] at read
              exact read

/-- Of what was read so far, `Heard` is known. Either a frame is read in the end, or there is none
and nothing that might come can make one of it, or a piece of it cannot be had. -/
theorem keeps_run_frame (Heard : Bytes → S → Prop) (begins : Heard [] now)
    (reads : ∀ bytes middle count fault, Heard bytes middle → Wants layout maximum bytes count →
      world.Keeps (receive stream count fault limit).run (fun result after => match result with
        | .ok content => content.length = count ∧ Heard (bytes ++ content) after
        | .error failure => post (.error failure) after) middle)
    (complete : ∀ bytes value after, Heard bytes after → IsFrame layout maximum bytes value →
      post (.ok value) after)
    (broken : ∀ bytes failure after, Heard bytes after →
      (∀ rest value, ¬ IsFrame layout maximum (bytes ++ rest) value) →
        post (.error failure) after) :
    world.Keeps (receiveFrame layout stream maximum limit).run post now := by
  refine keeps_run_receiveFrame (fun header after => header.length = 4 ∧ Heard header after) ?_ ?_
    fun header middle read small => ?_
  · exact (reads [] now 4 _ begins Wire.wants_header).mono fun result after read => read
  · rintro header after ⟨four, heard⟩ large
    refine broken header _ after heard fun rest value frame => ?_
    exact Nat.not_le_of_lt large ((Wire.isFrame_header four).mp frame).1
  · obtain ⟨four, heard⟩ := read
    refine (reads header middle _ _ heard (Wire.wants_body four)).mono fun result after read => ?_
    cases result with
    | error failure => exact read
    | ok body =>
        obtain ⟨length, heard⟩ := read
        dsimp only
        cases decoded : Wire.decodeBody layout body with
        | ok value =>
            refine complete (header ++ body) value after heard ?_
            rw [← List.append_nil body]
            exact (Wire.isFrame_body four length).mpr ⟨small, decoded⟩
        | error fault =>
            refine broken (header ++ body) _ after heard fun rest value frame => ?_
            rw [List.append_assoc] at frame
            cases decoded.symm.trans ((Wire.isFrame_body four length).mp frame).2

end Frames

end Overlay.Surroundings
