import Overlay.Proofs.Node.Conversation
import Overlay.Proofs.Program.Transport

/-!
Attempts at one end of a connection: what each of them asks for and what it may be answered.
-/

set_option autoImplicit false

namespace Overlay.Conversation

open Attempt Surroundings

/-- What is known when an answer comes: both logs are linked, and what was agreed holds. -/
structure Waited (manners : Manners) (now after : Desk) : Prop extends Later now after where
  linked : Linked after.mine after.theirs
  agreed : manners.agreed after.mine after.theirs

namespace Desk

/-- The bytes that are on their way to an end. -/
def coming (desk : Desk) : Wire.Bytes := desk.mine.unheard desk.theirs

def hears (desk : Desk) (bytes : Wire.Bytes) : Desk := { desk with mine := desk.mine.hears bytes }

def utters (desk : Desk) (bytes : Wire.Bytes) : Desk := { desk with mine := desk.mine.utters bytes }

def closes (desk : Desk) : Desk := { desk with mine := desk.mine.closes }

end Desk

variable {prompt : Bool} {manners : Manners} {now : Desk} {α : Type} {stream : StreamId}
  {limit : Limit}

/-- What an end asks for is answered some time later. -/
theorem keeps_ask {β : Type} {request : Request} {next : request.Reply → Program Node β}
    {post : β → Desk → Prop} (may : manners.may request now.mine now.theirs)
    (each : ∀ reply middle log, Waited manners now middle →
      Answers prompt middle.mine middle.theirs request reply log →
      (seat prompt manners).Keeps (next reply) post { middle with mine := log }) :
    (seat prompt manners).Keeps (.ask request next) post now := by
  refine ⟨may, ?_⟩
  rintro reply after ⟨middle, log, later, linked, agreed, answer, rfl⟩
  exact each reply middle log ⟨later, linked, agreed⟩ answer

theorem keeps_report {event : Event} {post : Unit → Desk → Prop}
    (may : manners.may (.report event) now.mine now.theirs)
    (holds : ∀ middle, Waited manners now middle → post () middle) :
    (seat prompt manners).Keeps (Program.report event) post now := by
  refine keeps_ask may fun reply middle log waited answer => ?_
  cases answer
  exact holds middle waited

theorem keeps_draw {chance : Chance α} {post : α → Desk → Prop}
    (holds : ∀ value dice, (value, dice) = chance now.node.dice →
      post value { now with node := { now.node with dice } }) :
    (seat prompt manners).Keeps (Node.draw chance) post now :=
  ⟨trivial, holds _ _ rfl⟩

theorem keeps_limit {activity : Activity} {span : Duration} {outer : Option Limit}
    {post : Except Failure Limit → Desk → Prop} (may : manners.may .moment now.mine now.theirs)
    (holds : ∀ limit middle, Waited manners now middle → post (.ok limit) middle) :
    (seat prompt manners).Keeps (Attempt.limit activity span outer).run post now := by
  refine keeps_run_limit.mpr (keeps_ask may fun reply middle log waited answer => ?_)
  obtain ⟨-, rfl⟩ := answer
  exact holds _ middle waited

theorem keeps_now {post : Instant → Desk → Prop} (may : manners.may .moment now.mine now.theirs)
    (holds : ∀ moment middle, Waited manners now middle → moment.tick < 2 ^ 64 →
      post moment middle) : (seat prompt manners).Keeps Program.now post now := by
  refine keeps_ask may fun reply middle log waited answer => ?_
  obtain ⟨small, rfl⟩ := answer
  exact holds reply middle waited small

theorem keeps_receive {count : Nat} {fault : StreamFault}
    {post : Except Failure Wire.Bytes → Desk → Prop}
    (may : manners.may (.read stream count (some limit.deadline)) now.mine now.theirs)
    (arrived : ∀ middle, Waited manners now middle → count ≤ middle.coming.length →
      post (.ok (middle.coming.take count)) (middle.hears (middle.coming.take count)))
    (ended : ∀ middle part, Waited manners now middle → part <+: middle.coming.take count →
      (prompt = false ∨ middle.theirs.gone ∧ middle.coming.length < count) →
      post (.error (.wire (.stream fault))) (middle.hears part))
    (expired : prompt = false → ∀ middle part, Waited manners now middle →
      post (.error limit.failure) (middle.hears part)) :
    (seat prompt manners).Keeps (receive stream count fault limit).run post now := by
  refine keeps_run_receive.mpr (keeps_ask may fun reading middle log waited answer => ?_)
  cases reading with
  | bytes content =>
      obtain ⟨enough, rfl, rfl⟩ := answer
      exact arrived middle waited enough
  | ended =>
      obtain ⟨why, part, coming, rfl⟩ := answer
      exact ended middle part waited coming why
  | expired =>
      obtain ⟨why, part, coming, rfl⟩ := answer
      exact expired why middle part waited

theorem keeps_receiveByte {post : Except Failure UInt8 → Desk → Prop}
    (may : manners.may (.read stream 1 (some limit.deadline)) now.mine now.theirs)
    (arrived : ∀ middle byte, Waited manners now middle → [byte] <+: middle.coming →
      post (.ok byte) (middle.hears [byte]))
    (ended : ∀ middle part, Waited manners now middle →
      (prompt = false ∨ middle.theirs.gone ∧ middle.coming = []) →
      post (.error (.wire (.stream .endInNumber))) (middle.hears part))
    (expired : prompt = false → ∀ middle part, Waited manners now middle →
      post (.error limit.failure) (middle.hears part)) :
    (seat prompt manners).Keeps (receiveByte stream limit).run post now := by
  refine keeps_run_receiveByte.mpr (keeps_receive may (fun middle waited some => ?_)
    (fun middle part waited _ why => ?_) expired)
  · obtain ⟨byte, rest, coming⟩ := List.exists_cons_of_length_pos some
    rw [coming]
    exact arrived middle byte waited (coming ▸ ⟨rest, rfl⟩)
  · refine ended middle part waited (why.imp_right fun cut => ⟨cut.1, ?_⟩)
    exact List.eq_nil_of_length_eq_zero (Nat.lt_one_iff.mp cut.2)

theorem keeps_send {bytes : Wire.Bytes} {post : Except Failure Unit → Desk → Prop}
    (may : manners.may (.write stream bytes (some limit.deadline)) now.mine now.theirs)
    (written : ∀ middle, Waited manners now middle → post (.ok ()) (middle.utters bytes))
    (broken : ∀ middle part, Waited manners now middle → part <+: bytes →
      (prompt = false ∨ middle.theirs.gone) →
      post (.error (.wire (.stream .brokenPipe))) (middle.utters part))
    (expired : prompt = false → ∀ middle part, Waited manners now middle → part <+: bytes →
      post (.error limit.failure) (middle.utters part)) :
    (seat prompt manners).Keeps (send stream bytes limit).run post now := by
  refine keeps_run_send.mpr (keeps_ask may fun writing middle log waited answer => ?_)
  cases writing with
  | written =>
      cases answer
      exact written middle waited
  | broken =>
      obtain ⟨why, part, early, rfl⟩ := answer
      exact broken middle part waited early why
  | expired =>
      obtain ⟨why, part, early, rfl⟩ := answer
      exact expired why middle part waited early

/-- However an attempt ends that holds a stream, the stream is closed after it. -/
theorem keeps_closing {attempt : Attempt Node α} {post : Except Failure α → Desk → Prop}
    (keeps : (seat prompt manners).Keeps attempt.run (fun result after =>
      manners.may (.close stream) after.mine after.theirs ∧
        ∀ middle, Waited manners after middle → post result middle.closes) now) :
    (seat prompt manners).Keeps (closing stream attempt).run post now := by
  refine keeps_run_closing.mpr (keeps.mono fun result after ends => ?_)
  refine keeps_ask ends.1 fun reply middle log waited answer => ?_
  cases answer
  exact ends.2 middle waited

theorem keeps_connected {address : SocketAddress} {tag : Wire.ServiceTag} {patience : Duration}
    {attempt : StreamId → Attempt Node α} {post : Except Failure α → Desk → Prop}
    (may : manners.may (.connect address tag patience limit.deadline) now.mine now.theirs)
    (opened : ∀ stream middle, Waited manners now middle →
      (seat prompt manners).Keeps (closing stream (attempt stream)).run post middle)
    (failed : prompt = false → ∀ failure middle, Waited manners now middle →
      post (.error failure) middle) :
    (seat prompt manners).Keeps (connected address tag patience limit attempt).run post now := by
  refine keeps_run_connected.mpr (keeps_ask may fun connecting middle log waited answer => ?_)
  cases connecting with
  | opened stream =>
      cases answer
      exact opened stream middle waited
  | failed fault =>
      obtain ⟨why, rfl⟩ := answer
      exact failed why _ middle waited
  | expired =>
      obtain ⟨why, rfl⟩ := answer
      exact failed why _ middle waited

section Free

open Wire (Fits IsFrame frame)

/-- The manners of an end of which nothing is known. -/
def Manners.free : Manners := ⟨fun _ _ => True, fun _ _ _ => True⟩

/-- The protocol of two ends of which nothing is known. -/
def Protocol.free : Protocol := ⟨fun _ _ => True, fun _ _ _ => True, fun _ _ _ => True⟩

theorem Protocol.free_lawful (prompt : Bool) : Protocol.free.Lawful prompt where
  begins := trivial
  caller := ⟨fun _ _ _ _ _ _ _ _ _ => trivial, fun _ _ _ _ _ _ => trivial⟩
  callee := ⟨fun _ _ _ _ _ _ _ _ _ => trivial, fun _ _ _ _ _ _ => trivial⟩

theorem keeps_any {β : Type} (program : Program Node β) :
    (seat prompt .free).Keeps program (fun _ _ => True) now := by
  induction program generalizing now with
  | done value => trivial
  | get next ih => exact ih _
  | put state next ih => exact ⟨trivial, ih⟩
  | ask request next ih => exact ⟨trivial, fun reply middle _ => ih reply⟩

/-- What is heard at two times is heard at the later one. -/
theorem Later.hears {first second : Desk} {bytes : Wire.Bytes} (before : Later now first)
    (after : Later (first.hears bytes) second) (more : Wire.Bytes) :
    ∃ middle, Later now middle ∧ second.hears more = middle.hears (bytes ++ more) := by
  refine ⟨{ second with mine := now.mine }, ⟨?_, rfl, before.theirs.trans after.theirs⟩, ?_⟩
  · exact before.node.trans after.node
  · have mine : second.mine = now.mine.hears bytes := by
      rw [after.mine, ← before.mine]
      rfl
    rw [Desk.hears, Desk.hears, mine, Log.hears, Log.hears, Log.hears, List.append_assoc]

/-- A frame is heard whole, or there is an error. -/
theorem keeps_receiveFrame {layout : Wire.Layout α} {maximum : Nat}
    {post : Except Failure α → Desk → Prop}
    (arrived : ∀ value bytes middle, Later now middle → IsFrame layout maximum bytes value →
      post (.ok value) (middle.hears bytes))
    (failed : ∀ failure bytes middle, Later now middle →
      post (.error failure) (middle.hears bytes)) :
    (seat prompt .free).Keeps (receiveFrame layout stream maximum limit).run post now := by
  have silent : now = now.hears [] := by
    rw [Desk.hears, Log.hears, List.append_nil]
  refine keeps_run_frame (fun bytes after => ∃ middle, Later now middle ∧ after = middle.hears bytes)
    ⟨now, .refl now, silent⟩ ?_ ?_ ?_
  · rintro bytes _ count fault ⟨before, later, rfl⟩ _
    have cut (failure : Failure) (middle : Desk) (part : Wire.Bytes)
        (waited : Waited .free (before.hears bytes) middle) :
        post (.error failure) (middle.hears part) := by
      obtain ⟨heard, later, same⟩ := later.hears waited.toLater part
      rw [same]
      exact failed failure _ heard later
    refine keeps_receive trivial (fun middle waited enough => ?_)
      (fun middle part waited _ _ => cut _ middle part waited)
      (fun _ middle part waited => cut _ middle part waited)
    exact ⟨List.length_take_of_le enough, later.hears waited.toLater _⟩
  · rintro bytes value _ ⟨middle, later, rfl⟩ complete
    exact arrived value bytes middle later complete
  · rintro bytes failure _ ⟨middle, later, rfl⟩ _
    exact failed failure bytes middle later

/-- A frame is said whole, or there is an error; a part of it may have been said then. -/
theorem keeps_sendFrame {layout : Wire.Layout α} {value : α} {maximum : Nat}
    {post : Except Failure Unit → Desk → Prop}
    (sent : ∀ middle, Later now middle → Fits layout value →
      post (.ok ()) (middle.utters (frame layout value)))
    (failed : ∀ failure part middle, Later now middle → Fits layout value ∨ part = [] →
      part <+: frame layout value → post (.error failure) (middle.utters part)) :
    (seat prompt .free).Keeps (sendFrame layout stream value maximum limit).run post now := by
  refine keeps_run_sendFrame (fun bytes encoded => ?_) fun fault _ => ?_
  · obtain ⟨rfl, fits⟩ := Wire.frame_of_encodeFrame encoded
    refine keeps_send trivial (fun middle waited => sent middle waited.toLater fits)
      (fun middle part waited early _ => ?_) (fun _ middle part waited early => ?_)
    · exact failed _ part middle waited.toLater (Or.inl fits) early
    · exact failed _ part middle waited.toLater (Or.inl fits) early
  · have unsaid : now.utters [] = now := by
      rw [Desk.utters, Log.utters, List.append_nil]
    have unsent := failed (.wire fault) [] now (.refl now) (Or.inr rfl) List.nil_prefix
    rwa [unsaid] at unsent

end Free

end Overlay.Conversation
