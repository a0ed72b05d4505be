import Overlay.Node.Inbound
import Overlay.Proofs.Engine
import Overlay.Proofs.Node.State
import Overlay.Proofs.Program.Transport

/-!
What a connection from outside can do to a node, and what it gets to read.

Whatever surrounds a node, one of its engines answers a request, or else the request is refused and
nothing happens (`keeps_run_answer`). Here a client has sent all that it sends, and the node serves
it alone (`accept_outcome`).
-/

set_option autoImplicit false

namespace Overlay.Node.Inbound

open Attempt Surroundings
open Wire (IsFrame)

section Requests

/-- Whether a message is a request to an engine of the node. -/
def Asks (node : Node) (request : Message) (algorithm : Algorithm) : Prop :=
  request.isRequest ∧ Algorithm.ofName? request.algorithm = some algorithm ∧
    ∃ engine ∈ node.engines, engine.algorithm = algorithm

/-- The reply to a request, and the node after one of its engines has answered. -/
def answered (node : Node) (algorithm : Algorithm) (request : Message) : Message × Node :=
  let answer := (node.engine algorithm).answer node.record node.clock request node.dice
  (answer.1.1, { node with dice := answer.2 }.withEngine answer.1.2)

theorem name_of_ofName? {name : String} {algorithm : Algorithm}
    (found : Algorithm.ofName? name = some algorithm) : algorithm.name = name := by
  simpa using List.find?_some found

/-- Of the requests that name it, an engine refuses those that are none. -/
theorem refusal?_named {node : Node} {request : Message} {algorithm : Algorithm}
    (named : algorithm.name = request.algorithm) :
    (node.engine algorithm).refusal? request =
      if request.isRequest then none
      else some (.unexpectedMessage "gossip reply received as request") := by
  simp only [Engine.refusal?, engine_algorithm, named, bne_self_eq_false, Bool.false_eq_true,
    ↓reduceIte, Bool.not_eq_eq_eq_not, Bool.not_true]
  cases request.isRequest <;> rfl

variable {S α : Type} {around : Surroundings Node S} {here : S}

/-- A name is one of an engine that runs, or the attempt fails. -/
theorem keeps_run_algorithmNamed {name : String} {post : Except Failure Algorithm → S → Prop}
    (runs : ∀ algorithm, Algorithm.ofName? name = some algorithm →
      (∃ engine ∈ (around.look here).engines, engine.algorithm = algorithm) →
        post (.ok algorithm) here)
    (unknown : (∀ algorithm, Algorithm.ofName? name = some algorithm →
      ¬ ∃ engine ∈ (around.look here).engines, engine.algorithm = algorithm) →
        ∀ failure, post (.error failure) here) :
    around.Keeps (algorithmNamed name).run post here := by
  simp only [algorithmNamed, keeps_run_bind, keeps_run_get]
  cases found : Algorithm.ofName? name with
  | none =>
      refine unknown ?_ _
      rintro algorithm named
      cases found.symm.trans named
  | some algorithm =>
      have running : (around.look here).engines.any (·.algorithm = algorithm) ↔
          ∃ engine ∈ (around.look here).engines, engine.algorithm = algorithm := by
        simp
      refine keeps_run_ite (fun there => runs algorithm found (running.mp there)) fun absent => ?_
      refine unknown ?_ _
      rintro other named there
      cases found.symm.trans named
      exact absent (running.mpr there)

/-- A request is refused, and then nothing happens, or one engine answers it. It may be reported
before that the request was meant for another name, and `Told` is known then. -/
theorem keeps_run_answer {request : Message} {post : Except Failure Message → S → Prop}
    (Told : S → Prop) (untold : Told here)
    (reports : ∀ algorithm, Asks (around.look here) request algorithm →
      around.Keeps (Program.report (.readdressed algorithm request.receiver.id))
        (fun _ => Told) here)
    (answers : ∀ algorithm, Asks (around.look here) request algorithm → ∀ middle, Told middle →
      around.Keeps (onEngine algorithm fun engine =>
        engine.answer (around.look here).record (around.look here).clock request)
          (fun reply => post (.ok reply)) middle)
    (refused : (∀ algorithm, ¬ Asks (around.look here) request algorithm) →
      ∀ failure, post (.error failure) here) :
    around.Keeps (answer request).run post here := by
  rw [answer, keeps_run_bind]
  refine keeps_run_algorithmNamed (fun algorithm named running => ?_) fun unknown => refused ?_
  · simp only [answerWith, keeps_run_bind, keeps_run_get, refusal?_named (name_of_ofName? named)]
    by_cases asked : request.isRequest
    · have asks : Asks (around.look here) request algorithm := ⟨asked, named, running⟩
      simp only [asked, ↓reduceIte]
      refine keeps_run_ite (fun _ => ?_) fun _ => ?_
      · simp only [keeps_run_bind, keeps_run_perform]
        exact (reports algorithm asks).mono fun _ => answers algorithm asks
      · rw [keeps_run_perform]
        exact answers algorithm asks here untold
    · simp only [asked]
      refine refused ?_ _
      rintro _ ⟨yes, _⟩
      exact asked yes
  · rintro algorithm ⟨_, named, running⟩
    exact unknown algorithm named running

end Requests

/-- A node that serves a connection: what the client has sent and the node has not read, and what
the node has written. -/
structure Call where
  node : Node
  unread : Wire.Bytes
  written : Wire.Bytes

namespace Call

/-- The same call at another time, with other bytes left to read. -/
def later (call : Call) (time : Timestamp) (unread : Wire.Bytes) : Call :=
  { call with node := { call.node with clock := time }, unread }

/-- The call after the node has written. -/
def wrote (call : Call) (time : Timestamp) (bytes : Wire.Bytes) : Call :=
  { call with node := { call.node with clock := time }, written := call.written ++ bytes }

end Call

/-- How a client answers that sends its bytes and then falls silent or hangs up, and reads whatever
it is written. Bytes that come too late for a deadline count as not sent. While the node waits, its
clock may be set; of requests that have nothing to do with the connection nothing is known. -/
def Answers (stream : StreamId) : (request : Request) → Call → request.Reply → Call → Prop
  | .moment, now, _, after => after = now
  | .report _, now, _, after => after = now
  | .read source count _, now, reply, after => source = stream →
    ∃ time, match reply with
      | .bytes content => count ≤ now.unread.length ∧ content = now.unread.take count ∧
          after = now.later time (now.unread.drop count)
      | _ => now.unread.length < count ∧ after = now.later time []
  | .write target bytes _, now, reply, after => target = stream →
    ∃ time, reply = .written ∧ after = now.wrote time bytes
  | _, _, _, _ => True

/-- A node with a client. -/
def world (stream : StreamId) : Surroundings Node Call where
  look := Call.node
  leave call node := { call with node }
  Answers := Answers stream
  Accepts _ _ := True
  Admits _ _ := True

variable {stream : StreamId} {now : Call} {α : Type}

theorem keeps_limit {activity : Activity} {span : Duration} {outer : Option Limit}
    {post : Except Failure Limit → Call → Prop} (holds : ∀ limit, post (.ok limit) now) :
    (world stream).Keeps (limit activity span outer).run post now := by
  refine keeps_run_limit.mpr ⟨trivial, ?_⟩
  rintro moment middle rfl
  exact holds _

theorem keeps_report {event : Event} {post : Unit → Call → Prop} (holds : post () now) :
    (world stream).Keeps (Program.report event) post now := by
  refine ⟨trivial, ?_⟩
  rintro ⟨⟩ middle rfl
  exact holds

theorem keeps_receive {count : Nat} {fault : StreamFault} {limit : Limit}
    {post : Except Failure Wire.Bytes → Call → Prop}
    (arrived : count ≤ now.unread.length → ∀ time,
      post (.ok (now.unread.take count)) (now.later time (now.unread.drop count)))
    (missing : now.unread.length < count → ∀ time failure,
      post (.error failure) (now.later time [])) :
    (world stream).Keeps (receive stream count fault limit).run post now := by
  refine keeps_run_receive.mpr ⟨trivial, fun reading middle answer => ?_⟩
  obtain ⟨time, answer⟩ := answer rfl
  cases reading with
  | bytes content =>
      obtain ⟨enough, rfl, rfl⟩ := answer
      exact arrived enough time
  | ended =>
      obtain ⟨short, rfl⟩ := answer
      exact missing short time _
  | expired =>
      obtain ⟨short, rfl⟩ := answer
      exact missing short time _

theorem keeps_receiveByte {limit : Limit} {post : Except Failure UInt8 → Call → Prop}
    (arrived : ∀ byte rest, now.unread = byte :: rest → ∀ time,
      post (.ok byte) (now.later time rest))
    (missing : now.unread = [] → ∀ time failure, post (.error failure) (now.later time [])) :
    (world stream).Keeps (receiveByte stream limit).run post now := by
  refine keeps_run_receiveByte.mpr (keeps_receive (fun some time => ?_) fun none time failure => ?_)
  · obtain ⟨byte, rest, sent⟩ := List.exists_cons_of_length_pos some
    rw [sent]
    exact arrived byte rest sent time
  · exact missing (List.eq_nil_of_length_eq_zero (Nat.lt_one_iff.mp none)) time failure

theorem keeps_send {bytes : Wire.Bytes} {limit : Limit} {post : Except Failure Unit → Call → Prop}
    (holds : ∀ time, post (.ok ()) (now.wrote time bytes)) :
    (world stream).Keeps (send stream bytes limit).run post now := by
  refine keeps_run_send.mpr ⟨trivial, fun writing middle answer => ?_⟩
  obtain ⟨time, rfl, rfl⟩ := answer rfl
  exact holds time

theorem keeps_receiveFrame {layout : Wire.Layout α} {maximum : Nat} {limit : Limit}
    {post : Except Failure α → Call → Prop}
    (complete : ∀ value, IsFrame layout maximum now.unread value → ∀ time unread,
      post (.ok value) (now.later time unread))
    (incomplete : (∀ value, ¬ IsFrame layout maximum now.unread value) → ∀ failure time unread,
      post (.error failure) (now.later time unread)) :
    (world stream).Keeps (receiveFrame layout stream maximum limit).run post now := by
  refine keeps_run_frame
    (fun heard after => ∃ time rest, now.unread = heard ++ rest ∧ after = now.later time rest)
    ⟨now.node.clock, now.unread, rfl, rfl⟩ ?_ ?_ ?_
  · rintro heard _ count fault ⟨before, rest, sent, rfl⟩ wants
    refine keeps_receive (fun enough time => ?_) fun short time failure => ?_
    · refine ⟨List.length_take_of_le enough, time, rest.drop count, ?_, rfl⟩
      rw [sent, List.append_assoc]
      exact congrArg (heard ++ ·) (List.take_append_drop count rest).symm
    · refine incomplete (fun value frame => ?_) failure time []
      rw [sent] at frame
      exact Nat.not_le_of_lt short (wants.enough rest value frame)
  · rintro heard value _ ⟨time, rest, sent, rfl⟩ frame
    exact complete value (sent ▸ frame.append rest) time rest
  · rintro heard failure _ ⟨time, rest, sent, rfl⟩ broken
    exact incomplete (sent ▸ broken rest) failure time rest

/-- The bytes that carry a value: its frame, or none where the frame would be too large. -/
def framed (layout : Wire.Layout α) (maximum : Nat) (value : α) : Wire.Bytes :=
  (Wire.encodeFrame layout value maximum).toOption.getD []

theorem framed_of_encoded {layout : Wire.Layout α} {maximum : Nat} {value : α}
    {frame : Wire.Bytes} (encoded : Wire.encodeFrame layout value maximum = .ok frame) :
    framed layout maximum value = frame := by
  rw [framed, encoded]
  rfl

theorem framed_of_refused {layout : Wire.Layout α} {maximum : Nat} {value : α}
    {fault : WireFault} (refused : Wire.encodeFrame layout value maximum = .error fault) :
    framed layout maximum value = [] := by
  rw [framed, refused]
  rfl

theorem keeps_sendFrame {layout : Wire.Layout α} {value : α} {maximum : Nat} {limit : Limit}
    {post : Except Failure Unit → Call → Prop}
    (holds : ∀ result time, post result (now.wrote time (framed layout maximum value))) :
    (world stream).Keeps (sendFrame layout stream value maximum limit).run post now := by
  refine keeps_run_sendFrame (fun frame encoded => ?_) fun fault refused => ?_
  · rw [framed_of_encoded encoded] at holds
    exact keeps_send (holds _)
  · rw [framed_of_refused refused] at holds
    have unsent := holds (.error (.wire fault)) now.node.clock
    rwa [Call.wrote, List.append_nil] at unsent

/-- Bytes that carry a value: its body behind the length of the body in four bytes, or nothing where
the body is too large. -/
def Carries (layout : Wire.Layout α) (maximum : Nat) (value : α) (bytes : Wire.Bytes) : Prop :=
  let body := layout.write value
  if body.length ≤ maximum ∧ body.length < 2 ^ 32 then
    ∃ header, Wire.Spells body.length 4 header ∧ bytes = header ++ body
  else bytes = []

theorem carries_framed (layout : Wire.Layout α) (maximum : Nat) (value : α) :
    Carries layout maximum value (framed layout maximum value) := by
  rw [Carries]
  split
  · next small =>
      have encoded := Wire.encodeFrame_eq_ok.mpr ⟨rfl, small⟩
      rw [framed_of_encoded encoded]
      exact ⟨_, Wire.spells_highestFirst small.2, rfl⟩
  · next large =>
      cases encoded : Wire.encodeFrame layout value maximum with
      | ok frame => exact absurd (Wire.encodeFrame_eq_ok.mp encoded).2 large
      | error fault => exact framed_of_refused encoded

theorem keeps_answer {request : Message} {post : Except Failure Message → Call → Prop}
    (accepted : ∀ algorithm, Asks now.node request algorithm →
      post (.ok (answered now.node algorithm request).1)
        { now with node := (answered now.node algorithm request).2 })
    (refused : (∀ algorithm, ¬ Asks now.node request algorithm) →
      ∀ failure, post (.error failure) now) :
    (world stream).Keeps (answer request).run post now := by
  refine keeps_run_answer (· = now) rfl (fun _ _ => keeps_report rfl) ?_ refused
  rintro algorithm asks _ rfl
  exact ⟨trivial, trivial, accepted algorithm asks⟩

theorem keeps_reporting {event : Failure → Event} {attempt : Attempt Node α}
    {post : Except Failure α → Call → Prop} (keeps : (world stream).Keeps attempt.run post now) :
    (world stream).Keeps (reporting event attempt).run post now := by
  refine keeps_run_reporting.mpr (keeps.mono fun result after holds => ?_)
  cases result with
  | ok value => exact holds
  | error failure => exact keeps_report holds

/-- Whether the bytes behind the tag of a stream are a valid request of gossip. -/
def IsRequest (node : Node) (bytes : Wire.Bytes) (request : Message) (algorithm : Algorithm) :
    Prop :=
  IsFrame Wire.Layout.message node.settings.maxMessageBytes.toNat bytes request ∧
    Asks node request algorithm

theorem keeps_serveGossip {outer : Option Limit} {post : Except Failure Unit → Call → Prop}
    (accepted : ∀ request algorithm, IsRequest now.node now.unread request algorithm →
      ∀ clock time result unread,
        let answer := answered { now.node with clock } algorithm request
        post result ⟨{ answer.2 with clock := time }, unread, now.written ++
          framed Wire.Layout.message now.node.settings.maxMessageBytes.toNat answer.1⟩)
    (refused : (∀ request algorithm, ¬ IsRequest now.node now.unread request algorithm) →
      ∀ failure time unread, post (.error failure) (now.later time unread)) :
    (world stream).Keeps (serveGossip stream outer).run post now := by
  simp only [serveGossip, keeps_run_bind, keeps_run_get]
  refine keeps_limit fun reading => keeps_receiveFrame ?_ ?_
  · intro request frame clock unread
    refine keeps_reporting (keeps_answer ?_ ?_)
    · intro algorithm asks
      refine keeps_limit fun writing => keeps_sendFrame fun result time => ?_
      exact accepted request algorithm ⟨frame, asks⟩ clock time result unread
    · intro unasked failure
      refine refused ?_ failure clock unread
      rintro other algorithm ⟨arrived, asks⟩
      cases frame.unique arrived
      exact unasked algorithm asks
  · intro broken failure time unread
    refine refused ?_ failure time unread
    rintro request algorithm ⟨frame, _⟩
    exact broken request frame

theorem keeps_echoBack {limit : Limit} {rounds : Nat} {post : Except Failure Unit → Call → Prop}
    (holds : ∀ result time unread, post result
      ⟨{ now.node with clock := time }, unread, now.written ++ now.unread.take rounds⟩) :
    (world stream).Keeps (echoBack stream limit rounds).run post now := by
  induction rounds generalizing now with
  | zero =>
      have unchanged := holds (.ok ()) now.node.clock now.unread
      rw [List.take_zero, List.append_nil] at unchanged
      exact unchanged
  | succ rounds ih =>
      simp only [echoBack, keeps_run_bind, keeps_run_perform, Program.read]
      refine ⟨trivial, fun reply middle answer => ?_⟩
      obtain ⟨time, answer⟩ := answer rfl
      cases reply with
      | bytes content =>
          obtain ⟨enough, rfl, rfl⟩ := answer
          refine (keeps_run_bind _ _).mpr (keeps_send fun later => ?_)
          apply ih
          intro result time unread
          have once := List.take_add (l := now.unread) (i := 1) (j := rounds)
          rw [Nat.add_comm] at once
          have returned := holds result time unread
          rw [once, ← List.append_assoc] at returned
          exact returned
      | ended =>
          obtain ⟨short, rfl⟩ := answer
          have empty : now.unread = [] := List.eq_nil_of_length_eq_zero (by omega)
          have silent := holds (.ok ()) time []
          rw [empty, List.take_nil, List.append_nil] at silent
          exact silent
      | expired =>
          obtain ⟨short, rfl⟩ := answer
          have empty : now.unread = [] := List.eq_nil_of_length_eq_zero (by omega)
          have silent := holds (.error limit.failure) time []
          rw [empty, List.take_nil, List.append_nil] at silent
          exact silent

/-- What a node tells about its own place. -/
def place (node : Node) : Wire.Bytes :=
  Wire.CoordinateBlock.encode ⟨node.position.coordinate, node.position.error⟩

theorem keeps_serveEcho {outer : Option Limit} {post : Except Failure Unit → Call → Prop}
    (holds : ∀ result time unread, post result ⟨{ now.node with clock := time }, unread,
      now.written ++ (place now.node ++ now.unread.take (echoRounds now.node.settings))⟩) :
    (world stream).Keeps (serveEcho stream outer).run post now := by
  simp only [serveEcho, keeps_run_bind, keeps_run_get]
  refine keeps_limit fun limit => keeps_send fun _ => keeps_echoBack fun result time unread => ?_
  have told := holds result time unread
  rw [← List.append_assoc] at told
  exact told

theorem keeps_serveRecord {outer : Option Limit} {post : Except Failure Unit → Call → Prop}
    (asked : now.unread.head? = some Wire.recordRequest → ∀ result time unread, post result
      ⟨{ now.node with clock := time }, unread, now.written ++
        framed Wire.Layout.peerRecord now.node.settings.maxMessageBytes.toNat now.node.record⟩)
    (unasked : now.unread.head? ≠ some Wire.recordRequest → ∀ failure time unread,
      post (.error failure) (now.later time unread)) :
    (world stream).Keeps (serveRecord stream outer).run post now := by
  simp only [serveRecord, keeps_run_bind, keeps_run_get]
  apply keeps_limit
  intro limit
  refine keeps_receiveByte (fun byte rest sent first => ?_) fun empty first failure => ?_
  · simp only [sent, List.head?_cons, Option.some.injEq] at asked unasked
    by_cases known : byte = Wire.recordRequest
    · simp only [known, bne_self_eq_false, Bool.false_eq_true, ↓reduceIte, keeps_run_bind,
        keeps_run_get]
      exact keeps_sendFrame fun result time => asked known result time rest
    · simp only [bne_iff_ne, ne_eq, known, not_false_eq_true, ↓reduceIte, keeps_run_bind,
        keeps_run_perform]
      exact keeps_report (unasked (by simpa using known) _ first rest)
  · refine unasked ?_ failure first []
    simp [empty]

theorem fallback_withEngine (node : Node) (engine : Engine) (algorithm : Algorithm)
    (same : engine.fallback = (node.engine engine.algorithm).fallback) :
    ((node.withEngine engine).engine algorithm).fallback = (node.engine algorithm).fallback := by
  rcases node.engine_withEngine engine algorithm with ⟨replaced, rfl⟩ | kept
  · rw [replaced, same]
  · rw [kept]

/-- What a node has done at the end of a connection over which a client sent some bytes. -/
structure Outcome (node : Node) (sent : Wire.Bytes) (after : Call) : Prop where
  /-- Apart from its engines, and what they draw, the node is as it was. -/
  frame : ∃ clock dice engines, after.node = { node with clock, dice, engines }
  fallbacks : ∀ algorithm,
    (after.node.engine algorithm).fallback = (node.engine algorithm).fallback
  /-- A valid request changes the one engine that it names, in the way in which that engine answers,
  and the answer is all that is written. -/
  request : ∀ bytes request algorithm, sent = 1 :: bytes →
    IsRequest node bytes request algorithm → ∃ clock time,
      let answer := (node.engine algorithm).answer node.record clock request node.dice
      after.node = { node with
        clock := time
        dice := answer.2
        engines := node.engines.map fun held =>
          if held.algorithm = algorithm then answer.1.2 else held } ∧
      Carries Wire.Layout.message node.settings.maxMessageBytes.toNat answer.1.1 after.written
  /-- Without a valid request the engines are as they were, too. -/
  unchanged : (∀ bytes request algorithm, sent = 1 :: bytes →
    ¬ IsRequest node bytes request algorithm) → ∃ time, after.node = { node with clock := time }
  /-- Whatever is no valid request to any service is not answered. -/
  silent : (∀ bytes request algorithm, sent = 1 :: bytes →
    ¬ IsRequest node bytes request algorithm) → (∀ bytes, sent ≠ 2 :: bytes) →
    (∀ bytes, sent ≠ 3 :: 1 :: bytes) → after.written = []
  /-- Whoever measures the way is told the place of the node and gets its bytes back, as many as
  the node takes for one ping. -/
  echo : ∀ bytes, sent = 2 :: bytes → ∃ told,
    Wire.CoordinateBlock.Told ⟨node.position.coordinate, node.position.error⟩ told ∧
      after.written = told ++ bytes.take (max 1 (min node.settings.pingTries.toNat 256))
  record : ∀ bytes, sent = 3 :: 1 :: bytes →
    Carries Wire.Layout.peerRecord node.settings.maxMessageBytes.toNat node.record after.written

theorem byte_of_ofByte {byte : UInt8} {tag : Wire.ServiceTag}
    (known : Wire.ServiceTag.ofByte byte = .ok tag) : byte = tag.byte := by
  unfold Wire.ServiceTag.ofByte at known
  split at known
  · cases known
    rfl
  · cases known
    rfl
  · cases known
    rfl
  · cases known

theorem not_ofByte {byte : UInt8} {fault : WireFault}
    (unknown : Wire.ServiceTag.ofByte byte = .error fault) : byte ≠ 1 ∧ byte ≠ 2 ∧ byte ≠ 3 := by
  refine ⟨?_, ?_, ?_⟩
  · rintro rfl
    cases unknown
  · rintro rfl
    cases unknown
  · rintro rfl
    cases unknown

theorem fallback_clock (node : Node) (clock : Timestamp) (algorithm : Algorithm) :
    (({ node with clock } : Node).engine algorithm).fallback =
      (node.engine algorithm).fallback := by
  simp only [Node.engine]
  cases node.engines.find? (·.algorithm = algorithm) with
  | none => rfl
  | some engine => rfl

/-- A connection that brings no request to an engine. -/
theorem outcome_of_unasked {node : Node} {sent : Wire.Bytes} {after : Call}
    (unasked : ∀ bytes request algorithm, sent = 1 :: bytes →
      ¬ IsRequest node bytes request algorithm)
    (unchanged : ∃ clock, after.node = { node with clock })
    (silent : (∀ bytes, sent ≠ 2 :: bytes) → (∀ bytes, sent ≠ 3 :: 1 :: bytes) →
      after.written = [])
    (echo : ∀ bytes, sent = 2 :: bytes →
      after.written = place node ++ bytes.take (echoRounds node.settings))
    (record : ∀ bytes, sent = 3 :: 1 :: bytes → after.written =
      framed Wire.Layout.peerRecord node.settings.maxMessageBytes.toNat node.record) :
    Outcome node sent after where
  frame := by
    obtain ⟨clock, unchanged⟩ := unchanged
    exact ⟨clock, node.dice, node.engines, unchanged⟩
  fallbacks algorithm := by
    obtain ⟨clock, unchanged⟩ := unchanged
    rw [unchanged]
    exact fallback_clock node clock algorithm
  request bytes request algorithm asks valid := absurd valid (unasked bytes request algorithm asks)
  unchanged _ := unchanged
  silent _ := silent
  echo bytes asks := ⟨place node, Wire.CoordinateBlock.told_encode _, echo bytes asks⟩
  record bytes asks := by
    rw [record bytes asks]
    exact carries_framed _ _ _

theorem outcome_of_answer {node : Node} {bytes unread : Wire.Bytes} {request : Message}
    {algorithm : Algorithm} {clock time : Timestamp}
    (valid : IsRequest node bytes request algorithm) :
    let answer := answered { node with clock } algorithm request
    Outcome node (1 :: bytes) ⟨{ answer.2 with clock := time }, unread,
      framed Wire.Layout.message node.settings.maxMessageBytes.toNat answer.1⟩ := by
  have engine := engine_of_running clock valid.2.2.2
  have frame := Engine.answer_frame (node.engine algorithm) node.record clock request node.dice
  obtain ⟨cache, tally, frame⟩ := frame
  have named := congrArg Engine.algorithm frame
  rw [engine_algorithm] at named
  simp only [answered, engine]
  constructor
  case frame => exact ⟨time, _, _, rfl⟩
  case fallbacks =>
    intro other
    have kept := congrArg Engine.fallback frame
    have swapped := fallback_withEngine { node with
      clock
      dice := ((node.engine algorithm).answer node.record clock request node.dice).2 } _ other
      (kept.trans (by rw [named]; exact (fallback_clock node clock algorithm).symm))
    exact (fallback_clock _ time other).trans (swapped.trans (fallback_clock node clock other))
  case request =>
    intro others second chosen asks other
    cases asks
    cases valid.1.unique other.1
    cases valid.2.2.1.symm.trans other.2.2.1
    refine ⟨clock, time, ?_, carries_framed _ _ _⟩
    simp only [withEngine, named]
  case unchanged => exact fun unasked => absurd valid (unasked bytes request algorithm rfl)
  case silent => exact fun unasked => absurd valid (unasked bytes request algorithm rfl)
  case echo => exact fun others asks => absurd asks (by simp)
  case record => exact fun others asks => absurd asks (by simp)

theorem keeps_accept (node : Node) (sent : Wire.Bytes) :
    (world stream).Keeps (accept stream).run (fun _ after => Outcome node sent after)
      ⟨node, sent, []⟩ := by
  simp only [accept, keeps_run_bind, keeps_run_get]
  refine keeps_limit fun limit => keeps_receiveByte ?_ ?_
  · intro byte rest arrived time
    simp only at arrived
    cases known : Wire.ServiceTag.ofByte byte with
    | ok tag =>
        have first := byte_of_ofByte known
        cases tag with
        | gossip =>
            simp only [Wire.ServiceTag.byte] at first
            subst first arrived
            refine keeps_serveGossip ?_ ?_
            · intro request algorithm valid clock time result unread
              exact outcome_of_answer valid
            · intro unasked failure time unread
              refine outcome_of_unasked ?_ ⟨time, rfl⟩ ?_ ?_ ?_
              · rintro bytes request algorithm asks
                cases asks
                exact unasked request algorithm
              · exact fun _ _ => rfl
              · exact fun others asks => absurd asks (by simp)
              · exact fun others asks => absurd asks (by simp)
        | vivaldi =>
            simp only [Wire.ServiceTag.byte] at first
            subst first arrived
            apply keeps_serveEcho
            intro result time unread
            refine outcome_of_unasked ?_ ⟨time, rfl⟩ ?_ ?_ ?_
            · exact fun bytes request algorithm asks => absurd asks (by simp)
            · exact fun placed => absurd rfl (placed rest)
            · rintro bytes asks
              cases asks
              rfl
            · exact fun others asks => absurd asks (by simp)
        | nodeInfo =>
            simp only [Wire.ServiceTag.byte] at first
            subst first arrived
            refine keeps_serveRecord ?_ ?_
            · intro asked result time unread
              obtain ⟨bytes, rfl⟩ := List.head?_eq_some_iff.mp asked
              refine outcome_of_unasked ?_ ⟨time, rfl⟩ ?_ ?_ ?_
              · exact fun bytes request algorithm asks => absurd asks (by simp)
              · exact fun _ recorded => absurd rfl (recorded bytes)
              · exact fun others asks => absurd asks (by simp)
              · exact fun _ _ => rfl
            · intro unasked failure time unread
              refine outcome_of_unasked ?_ ⟨time, rfl⟩ ?_ ?_ ?_
              · exact fun bytes request algorithm asks => absurd asks (by simp)
              · exact fun _ _ => rfl
              · exact fun others asks => absurd asks (by simp)
              · rintro bytes asks
                cases asks
                exact absurd rfl unasked
    | error fault =>
        obtain ⟨gossip, vivaldi, nodeInfo⟩ := not_ofByte known
        simp only [known, keeps_run_bind, keeps_run_perform]
        refine keeps_report ?_
        subst arrived
        refine outcome_of_unasked ?_ ⟨time, rfl⟩ ?_ ?_ ?_
        · exact fun bytes request algorithm asks => absurd (List.cons.inj asks).1 gossip
        · exact fun _ _ => rfl
        · exact fun others asks => absurd (List.cons.inj asks).1 vivaldi
        · exact fun others asks => absurd (List.cons.inj asks).1 nodeInfo
  · intro empty time failure
    simp only at empty
    subst empty
    refine outcome_of_unasked ?_ ⟨time, rfl⟩ ?_ ?_ ?_
    · exact fun bytes request algorithm asks => absurd asks (by simp)
    · exact fun _ _ => rfl
    · exact fun others asks => absurd asks (by simp)
    · exact fun others asks => absurd asks (by simp)

/-- Every request that a node makes while it serves a client has an answer. -/
theorem exists_answer (request : Request) (now : Call) :
    ∃ reply after, (world stream).Answers request now reply after := by
  cases request with
  | moment => exact ⟨default, now, rfl⟩
  | report event => exact ⟨(), now, rfl⟩
  | read source count deadline =>
      by_cases enough : count ≤ now.unread.length
      · exact ⟨.bytes (now.unread.take count), _, fun _ => ⟨now.node.clock, enough, rfl, rfl⟩⟩
      · exact ⟨.ended, _, fun _ => ⟨now.node.clock, Nat.lt_of_not_le enough, rfl⟩⟩
  | write target bytes deadline =>
      exact ⟨.written, _, fun _ => ⟨now.node.clock, rfl, rfl⟩⟩
  | connect address tag patience deadline => exact ⟨.expired, now, trivial⟩
  | finish target => exact ⟨(), now, trivial⟩
  | close target => exact ⟨(), now, trivial⟩
  | pause span signals => exact ⟨.elapsed, now, trivial⟩
  | raise signal => exact ⟨(), now, trivial⟩
  | launch job => exact ⟨default, now, trivial⟩
  | join workers => exact ⟨(), now, trivial⟩

/-- Serving a client comes to an end, and whatever the client sends, only one valid request of
gossip changes the node, and only in the one engine that it names. -/
theorem accept_outcome (stream : StreamId) (node : Node) (sent : Wire.Bytes) :
    (∃ result after, (world stream).Runs (accept stream).run ⟨node, sent, []⟩ result after) ∧
    ∀ result after, (world stream).Runs (accept stream).run ⟨node, sent, []⟩ result after →
      Outcome node sent after := by
  constructor
  · exact exists_runs exists_answer _
  · intro result after run
    exact (keeps_accept node sent).ends run

end Overlay.Node.Inbound
