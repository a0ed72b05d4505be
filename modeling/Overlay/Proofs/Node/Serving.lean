import Overlay.Proofs.Node.Inbound
import Overlay.Proofs.Program.Play

/-!
What an engine counts of the requests that reach it over a stream.

Other connections go on while this one waits, so the count of an engine is compared with what it
has served on others meanwhile (`Since`). A request is counted when the engine has taken it in, and
that does not depend on what becomes of the reply: a complete reply on the stream has always been
counted, but so has a request whose reply was too large or was cut off (`serve_counts`).
-/

set_option autoImplicit false

namespace Overlay.Node.Serving

open Attempt Inbound Surroundings
open Wire (IsFrame)

/-- A node, and how many requests each of its engines has served on other streams. -/
structure Books where
  node : Node
  elsewhere : Algorithm → ℕ

/-- A node that serves a stream: what the other end has sent and the node has not read, and what is
written. -/
structure Session extends Books where
  unread : Wire.Bytes
  written : Wire.Bytes

/-- How many requests an engine has counted. -/
def served (node : Node) (algorithm : Algorithm) : ℕ :=
  (node.engine algorithm).tally.requestsServed

/-- Between the two, the engines have counted so many requests of this stream, and besides what they
have served on others. -/
structure Since (counted : Algorithm → ℕ) (first now : Books) : Prop where
  settings : now.node.settings = first.node.settings
  algorithms : now.node.engines.map (·.algorithm) = first.node.engines.map (·.algorithm)
  served : ∀ algorithm, served now.node algorithm + first.elsewhere algorithm =
    served first.node algorithm + now.elsewhere algorithm + counted algorithm

/-- What may happen to a session while the node waits. -/
structure Goes (now after : Session) : Prop where
  since : Since (fun _ => 0) now.toBooks after.toBooks
  unread : after.unread = now.unread
  written : after.written = now.written

/-- How the other end may go on. It has sent some bytes; those that come too late count as not
sent. It takes what it is written, or it stalls or hangs up at any place of it. -/
def Answers (stream : StreamId) : (request : Request) → Session → request.Reply → Session → Prop
  | .read source count _, now, reply, after => source = stream →
    ∃ middle, Goes now middle ∧ match reply with
      | .bytes content => count ≤ now.unread.length ∧ content = now.unread.take count ∧
          after = { middle with unread := now.unread.drop count }
      | _ => now.unread.length < count ∧ after = { middle with unread := [] }
  | .write target bytes _, now, reply, after => target = stream →
    ∃ middle part, Goes now middle ∧ part <+: bytes ∧ (reply = .written → part = bytes) ∧
      after = { middle with written := now.written ++ part }
  | _, now, _, after => Goes now after

/-- A node that serves a stream, and other streams beside it. -/
def world (stream : StreamId) : Surroundings Node Session where
  look session := session.node
  leave session node := { session with node }
  Answers := Answers stream
  Accepts _ _ := True
  Admits _ _ := True

section Since

variable {counted more : Algorithm → ℕ} {first now after : Books}

theorem Since.refl (books : Books) : Since (fun _ => 0) books books :=
  ⟨rfl, rfl, fun _ => rfl⟩

/-- Of two times that follow each other, all is counted. -/
theorem Since.add (since : Since counted first now) (later : Since more now after) :
    Since (fun algorithm => counted algorithm + more algorithm) first after where
  settings := later.settings.trans since.settings
  algorithms := later.algorithms.trans since.algorithms
  served algorithm := by
    have before := since.served algorithm
    have behind := later.served algorithm
    omega

theorem Since.trans (since : Since counted first now) (later : Since (fun _ => 0) now after) :
    Since counted first after := since.add later

/-- What is counted after a time at which nothing was. -/
theorem Since.answered (since : Since (fun _ => 0) first now) (later : Since counted now after) :
    Since counted first after := by
  simpa only [Nat.zero_add] using since.add later

theorem asks_iff {request : Message} {algorithm : Algorithm} (since : Since counted first now) :
    Asks now.node request algorithm ↔ Asks first.node request algorithm := by
  have runs (node : Node) : (∃ engine ∈ node.engines, engine.algorithm = algorithm) ↔
      algorithm ∈ node.engines.map (·.algorithm) := by
    rw [List.mem_map]
  rw [Asks, Asks, runs, runs, since.algorithms]

/-- A node once one of its engines has answered a request. -/
def answering (node : Node) (algorithm : Algorithm) (own : PeerRecord) (clock : Timestamp)
    (request : Message) : Message × Node :=
  let answer := (node.engine algorithm).answer own clock request node.dice
  (answer.1.1, { node with dice := answer.2 }.withEngine answer.1.2)

variable {node : Node} {algorithm : Algorithm}

/-- An answer is counted, once and by the engine that gives it. -/
theorem served_answering (runs : ∃ engine ∈ node.engines, engine.algorithm = algorithm)
    (own : PeerRecord) (clock : Timestamp) (request : Message) (other : Algorithm) :
    served (answering node algorithm own clock request).2 other =
      served node other + if other = algorithm then 1 else 0 := by
  have counted := Engine.answer_tally (node.engine algorithm) own clock request node.dice
  obtain ⟨cache, tally, frame⟩ :=
    Engine.answer_frame (node.engine algorithm) own clock request node.dice
  rw [answering]
  generalize (node.engine algorithm).answer own clock request node.dice = answer at counted frame ⊢
  have named : answer.1.2.algorithm = algorithm := by
    rw [frame]
    exact node.engine_algorithm algorithm
  by_cases same : other = algorithm
  · have replaced := @engine_withEngine_self { node with dice := answer.2 } answer.1.2
      (named.symm ▸ runs)
    rw [named] at replaced
    rw [if_pos same, same, served, served, replaced, counted]
  · rcases engine_withEngine { node with dice := answer.2 } answer.1.2 other with ⟨_, equal⟩ | kept
    · exact absurd (equal.trans named) same
    · rw [if_neg same, Nat.add_zero, served, served, kept]
      rfl

theorem since_answering (runs : ∃ engine ∈ node.engines, engine.algorithm = algorithm)
    (own : PeerRecord) (clock : Timestamp) (request : Message) (elsewhere : Algorithm → ℕ) :
    Since (fun other => if other = algorithm then 1 else 0) ⟨node, elsewhere⟩
      ⟨(answering node algorithm own clock request).2, elsewhere⟩ where
  settings := rfl
  algorithms := algorithms_withEngine _ _
  served other := by
    change served (answering node algorithm own clock request).2 other + elsewhere other =
      served node other + elsewhere other + if other = algorithm then 1 else 0
    rw [served_answering runs]
    omega

end Since

section Rules

variable {stream : StreamId} {now : Session} {α : Type}

theorem Goes.refl (session : Session) : Goes session session := ⟨.refl session.toBooks, rfl, rfl⟩

theorem keeps_limit {activity : Activity} {span : Duration} {outer : Option Limit}
    {post : Except Failure Limit → Session → Prop}
    (holds : ∀ limit after, Goes now after → post (.ok limit) after) :
    (world stream).Keeps (limit activity span outer).run post now :=
  keeps_run_limit.mpr ⟨trivial, fun _ after goes => holds _ after goes⟩

theorem keeps_report {event : Event} {post : Unit → Session → Prop}
    (holds : ∀ after, Goes now after → post () after) :
    (world stream).Keeps (Program.report event) post now :=
  ⟨trivial, fun _ after goes => holds after goes⟩

theorem keeps_receive {count : Nat} {fault : StreamFault} {limit : Limit}
    {post : Except Failure Wire.Bytes → Session → Prop}
    (arrived : count ≤ now.unread.length → ∀ middle, Goes now middle →
      post (.ok (now.unread.take count)) { middle with unread := now.unread.drop count })
    (missing : now.unread.length < count → ∀ failure middle, Goes now middle →
      post (.error failure) { middle with unread := [] }) :
    (world stream).Keeps (receive stream count fault limit).run post now := by
  refine keeps_run_receive.mpr ⟨trivial, fun reading after answer => ?_⟩
  obtain ⟨middle, goes, answer⟩ := answer rfl
  cases reading with
  | bytes content =>
      obtain ⟨enough, rfl, rfl⟩ := answer
      exact arrived enough middle goes
  | ended =>
      obtain ⟨short, rfl⟩ := answer
      exact missing short _ middle goes
  | expired =>
      obtain ⟨short, rfl⟩ := answer
      exact missing short _ middle goes

/-- What is left of a session in which a frame was looked for. -/
structure Read (now after : Session) : Prop where
  since : Since (fun _ => 0) now.toBooks after.toBooks
  written : after.written = now.written

theorem Read.goes {before middle : Session} (read : Read now before) (goes : Goes before middle)
    (unread : Wire.Bytes) : Read now { middle with unread } :=
  ⟨read.since.trans goes.since, goes.written.trans read.written⟩

theorem keeps_receiveFrame {layout : Wire.Layout α} {maximum : Nat} {limit : Limit}
    {post : Except Failure α → Session → Prop}
    (complete : ∀ value, IsFrame layout maximum now.unread value → ∀ after, Read now after →
      post (.ok value) after)
    (incomplete : (∀ value, ¬ IsFrame layout maximum now.unread value) → ∀ failure after,
      Read now after → post (.error failure) after) :
    (world stream).Keeps (receiveFrame layout stream maximum limit).run post now := by
  refine keeps_run_frame (fun heard after => now.unread = heard ++ after.unread ∧ Read now after)
    ⟨rfl, .refl now.toBooks, rfl⟩ ?_ ?_ ?_
  · rintro heard before count fault ⟨sent, read⟩ wants
    refine keeps_receive (fun enough middle goes => ?_) fun short failure middle goes => ?_
    · refine ⟨List.length_take_of_le enough, ?_, read.goes goes _⟩
      rw [sent, List.append_assoc]
      exact congrArg (heard ++ ·) (List.take_append_drop count before.unread).symm
    · refine incomplete (fun value frame => ?_) failure _ (read.goes goes [])
      rw [sent] at frame
      exact Nat.not_le_of_lt short (wants.enough before.unread value frame)
  · rintro heard value after ⟨sent, read⟩ frame
    exact complete value (sent ▸ frame.append after.unread) after read
  · rintro heard failure after ⟨sent, read⟩ broken
    exact incomplete (sent ▸ broken after.unread) failure after read

/-- Either the whole frame is written, or the attempt fails, after any part of the frame or of
nothing if the frame is too large. -/
theorem keeps_sendFrame {layout : Wire.Layout α} {value : α} {maximum : Nat} {limit : Limit}
    {post : Except Failure Unit → Session → Prop}
    (whole : ∀ frame, Wire.encodeFrame layout value maximum = .ok frame → ∀ middle,
      Goes now middle → post (.ok ()) { middle with written := now.written ++ frame })
    (cut : ∀ failure part, part <+: framed layout maximum value → ∀ middle,
      Goes now middle → post (.error failure) { middle with written := now.written ++ part }) :
    (world stream).Keeps (sendFrame layout stream value maximum limit).run post now := by
  refine keeps_run_sendFrame (fun frame encoded => ?_) fun fault refused => ?_
  · rw [framed_of_encoded encoded] at cut
    refine keeps_run_send.mpr ⟨trivial, fun writing after answer => ?_⟩
    obtain ⟨middle, part, goes, front, all, rfl⟩ := answer rfl
    cases writing with
    | written =>
        rw [all rfl]
        exact whole frame encoded middle goes
    | broken => exact cut _ part front middle goes
    | expired => exact cut _ part front middle goes
  · rw [framed_of_refused refused] at cut
    have unsent := cut (.wire fault) [] List.nil_prefix now (.refl now)
    rwa [List.append_nil] at unsent

/-- A request is refused, and then nothing happens, or one engine answers it. -/
theorem keeps_answer {request : Message} {post : Except Failure Message → Session → Prop}
    (accepted : ∀ algorithm, Asks now.node request algorithm → ∀ own clock middle,
      Goes now middle →
        let answer := answering middle.node algorithm own clock request
        post (.ok answer.1) { middle with node := answer.2 })
    (refused : (∀ algorithm, ¬ Asks now.node request algorithm) →
      ∀ failure, post (.error failure) now) :
    (world stream).Keeps (answer request).run post now := by
  refine Inbound.keeps_run_answer (Goes now ·) (.refl now) (fun _ _ => ?_) ?_ refused
  · exact keeps_report fun _ goes => goes
  · intro algorithm asks middle goes
    exact ⟨trivial, trivial, accepted algorithm asks _ _ middle goes⟩

theorem keeps_reporting {event : Failure → Event} {attempt : Attempt Node α}
    {post : Except Failure α → Session → Prop}
    (keeps : (world stream).Keeps attempt.run (fun result after => match result with
      | .ok value => post (.ok value) after
      | .error failure => ∀ last, Goes after last → post (.error failure) last) now) :
    (world stream).Keeps (reporting event attempt).run post now := by
  refine keeps_run_reporting.mpr (keeps.mono fun result after holds => ?_)
  cases result with
  | ok value => exact holds
  | error failure => exact keeps_report holds

end Rules

section Accounts

variable {stream : StreamId}

/-- A stream on which the other end has sent some bytes. -/
def begun (node : Node) (sent : Wire.Bytes) : Session := ⟨⟨node, fun _ => 0⟩, sent, []⟩

/-- What is counted of a stream on which the other end has sent some bytes, and what is written. -/
structure Accounted (node : Node) (sent : Wire.Bytes) (result : Except Failure Unit)
    (after : Session) : Prop where
  /-- A valid request is counted, whatever becomes of the reply. -/
  counted : ∀ request algorithm, IsRequest node sent request algorithm →
    Since (fun other => if other = algorithm then 1 else 0) ⟨node, fun _ => 0⟩ after.toBooks
  /-- All that is written is the answer of the engine, to its end if nothing fails. -/
  told : ∀ request algorithm, IsRequest node sent request algorithm →
    ∃ middle, Since (fun _ => 0) ⟨node, fun _ => 0⟩ middle ∧ ∃ own clock,
      let reply := (answering middle.node algorithm own clock request).1
      let maximum := node.settings.maxMessageBytes.toNat
      after.written <+: framed Wire.Layout.message maximum reply ∧
        (result = .ok () →
          Wire.encodeFrame Wire.Layout.message reply maximum = .ok after.written)
  /-- Without a valid request nothing is counted or written, and the attempt fails. -/
  uncounted : (∀ request algorithm, ¬ IsRequest node sent request algorithm) →
    Since (fun _ => 0) ⟨node, fun _ => 0⟩ after.toBooks ∧ after.written = [] ∧
      ∃ failure, result = .error failure
  /-- Where a complete reply is on the stream, its request has been counted. -/
  complete : ∀ reply maximum,
    Wire.encodeFrame Wire.Layout.message reply maximum = .ok after.written →
      ∃ request algorithm, IsRequest node sent request algorithm ∧
        Since (fun other => if other = algorithm then 1 else 0) ⟨node, fun _ => 0⟩ after.toBooks

variable {node : Node} {sent : Wire.Bytes} {request : Message} {algorithm : Algorithm}

/-- A request that was answered; of the reply some part is written. -/
theorem accounted_of_answer (valid : IsRequest node sent request algorithm) {middle : Books}
    (since : Since (fun _ => 0) ⟨node, fun _ => 0⟩ middle) {own : PeerRecord} {clock : Timestamp}
    {result : Except Failure Unit} {after : Session}
    (goes : Since (fun _ => 0)
      ⟨(answering middle.node algorithm own clock request).2, middle.elsewhere⟩ after.toBooks)
    (part : after.written <+: framed Wire.Layout.message node.settings.maxMessageBytes.toNat
      (answering middle.node algorithm own clock request).1)
    (whole : result = .ok () → Wire.encodeFrame Wire.Layout.message
      (answering middle.node algorithm own clock request).1
      node.settings.maxMessageBytes.toNat = .ok after.written) :
    Accounted node sent result after := by
  have runs := ((asks_iff since).mpr valid.2).2.2
  have counted : Since (fun other => if other = algorithm then 1 else 0) ⟨node, fun _ => 0⟩
      after.toBooks :=
    (since.answered (since_answering runs own clock request middle.elsewhere)).trans goes
  have alone {other : Message} {named : Algorithm} (also : IsRequest node sent other named) :
      request = other ∧ algorithm = named := by
    obtain rfl := valid.1.unique also.1
    exact ⟨rfl, Option.some.inj (valid.2.2.1.symm.trans also.2.2.1)⟩
  refine ⟨?_, ?_, fun none => absurd valid (none request algorithm), ?_⟩
  · intro other named also
    obtain ⟨rfl, rfl⟩ := alone also
    exact counted
  · intro other named also
    obtain ⟨rfl, rfl⟩ := alone also
    exact ⟨middle, since, own, clock, part, whole⟩
  · exact fun _ _ _ => ⟨request, algorithm, valid, counted⟩

theorem accounted_of_unasked {after : Session} {failure : Failure}
    (unasked : ∀ request algorithm, ¬ IsRequest node sent request algorithm)
    (since : Since (fun _ => 0) ⟨node, fun _ => 0⟩ after.toBooks) (unwritten : after.written = []) :
    Accounted node sent (.error failure) after where
  counted request algorithm valid := absurd valid (unasked request algorithm)
  told request algorithm valid := absurd valid (unasked request algorithm)
  uncounted _ := ⟨since, unwritten, failure, rfl⟩
  complete reply maximum whole := by
    rw [unwritten, Wire.encodeFrame_eq_ok] at whole
    have length := congrArg List.length whole.1
    rw [Wire.frame, List.length_append, Wire.length_highestFirst, List.length_nil] at length
    omega

theorem keeps_serveGossip (node : Node) (sent : Wire.Bytes) (outer : Option Limit) :
    (world stream).Keeps (serveGossip stream outer).run (Accounted node sent)
      (begun node sent) := by
  simp only [serveGossip, keeps_run_bind, keeps_run_get]
  refine keeps_limit fun reading started goes => ?_
  have unread : started.unread = sent := goes.unread
  have unwritten : started.written = [] := goes.written
  refine keeps_receiveFrame ?_ ?_
  · intro request frame read has
    rw [unread] at frame
    have since : Since (fun _ => 0) ⟨node, fun _ => 0⟩ read.toBooks := goes.since.trans has.since
    have empty : read.written = [] := has.written.trans unwritten
    refine keeps_reporting (keeps_answer ?_ ?_)
    · intro algorithm asks own clock middle waits
      have valid : IsRequest node sent request algorithm := ⟨frame, (asks_iff since).mp asks⟩
      have ready : Since (fun _ => 0) ⟨node, fun _ => 0⟩ middle.toBooks := since.trans waits.since
      refine keeps_limit fun writing answered writes => keeps_sendFrame ?_ ?_
      · intro frame encoded last ends
        have written : answered.written = [] := writes.written.trans (waits.written.trans empty)
        rw [written, List.nil_append]
        have all : framed Wire.Layout.message node.settings.maxMessageBytes.toNat
            (answering middle.node algorithm own clock request).1 = frame :=
          framed_of_encoded encoded
        refine accounted_of_answer valid ready (writes.since.trans ends.since) ?_ fun _ => encoded
        exact all ▸ List.prefix_refl frame
      · intro failure part front last ends
        have written : answered.written = [] := writes.written.trans (waits.written.trans empty)
        rw [written, List.nil_append]
        refine accounted_of_answer valid ready (writes.since.trans ends.since) front ?_
        rintro ⟨⟩
    · intro unasked failure last ends
      refine accounted_of_unasked ?_ (since.trans ends.since) (ends.written.trans empty)
      rintro other algorithm ⟨arrived, asks⟩
      obtain rfl := frame.unique arrived
      exact unasked algorithm ((asks_iff since).mpr asks)
  · intro broken failure after has
    rw [unread] at broken
    refine accounted_of_unasked ?_ (goes.since.trans has.since) (has.written.trans unwritten)
    rintro request algorithm ⟨frame, _⟩
    exact broken request frame

/-- Every request that a node makes while it serves a stream has an answer. -/
theorem exists_answer (request : Request) (now : Session) :
    ∃ reply after, (world stream).Answers request now reply after := by
  cases request with
  | read source count deadline =>
      by_cases enough : count ≤ now.unread.length
      · exact ⟨.bytes (now.unread.take count), _, fun _ => ⟨now, .refl now, enough, rfl, rfl⟩⟩
      · exact ⟨.ended, _, fun _ => ⟨now, .refl now, Nat.lt_of_not_le enough, rfl⟩⟩
  | write target bytes deadline =>
      exact ⟨.broken, _, fun _ => ⟨now, [], .refl now, List.nil_prefix, nofun, rfl⟩⟩
  | moment => exact ⟨default, now, .refl now⟩
  | connect address tag patience deadline => exact ⟨.expired, now, .refl now⟩
  | pause span signals => exact ⟨.elapsed, now, .refl now⟩
  | launch job => exact ⟨default, now, .refl now⟩
  | finish | close | raise | join | report => exact ⟨(), now, .refl now⟩

/-- Serving a stream comes to an end. Whatever the other end has sent and however it goes on, a
valid request is counted once, by the engine that it names, and nothing else is counted. A reply
that is complete on the stream has therefore been counted. -/
theorem serve_counts (stream : StreamId) (outer : Option Limit) (node : Node)
    (sent : Wire.Bytes) :
    (∃ result after,
      (world stream).Runs (serveGossip stream outer).run (begun node sent) result after) ∧
    ∀ result after,
      (world stream).Runs (serveGossip stream outer).run (begun node sent) result after →
        Accounted node sent result after :=
  ⟨exists_runs exists_answer _, fun _ _ run => (keeps_serveGossip node sent outer).ends run⟩

end Accounts

section Attending

/-- The other end is there all the time, and takes what it is written. -/
def attend : (request : Request) → Session → request.Reply × Session
  | .read _ count _, now =>
    if count ≤ now.unread.length then
      (.bytes (now.unread.take count), { now with unread := now.unread.drop count })
    else (.ended, { now with unread := [] })
  | .write _ bytes _, now => (.written, { now with written := now.written ++ bytes })
  | .moment, now => (⟨0, 0⟩, now)
  | .connect .., now => (.expired, now)
  | .pause .., now => (.elapsed, now)
  | .launch _, now => (⟨0⟩, now)
  | .finish _, now | .close _, now | .raise _, now | .join _, now | .report _, now => ((), now)

theorem answers_attend (stream : StreamId) (request : Request) (now : Session) :
    (world stream).Answers request now (attend request now).1 (attend request now).2 := by
  cases request with
  | read source count deadline =>
      rw [attend]
      split
      · next enough => exact fun _ => ⟨now, .refl now, enough, rfl, rfl⟩
      · next short => exact fun _ => ⟨now, .refl now, Nat.lt_of_not_le short, rfl⟩
  | write target bytes deadline =>
      exact fun _ => ⟨now, bytes, .refl now, List.prefix_refl bytes, fun _ => rfl, rfl⟩
  | _ => exact Goes.refl now

/-- A request of a peer that tells of nobody. -/
def asking : Message :=
  { sender := .numbered 2, receiver := .numbered 1, entries := [], isRequest := true
    algorithm := "arrg" }

/-- A node that sends and takes in messages up to a size only. -/
def limited (maximum : UInt64) : Node :=
  let settings := { Settings.brisk with maxMessageBytes := maximum, algorithms := [.arrg] }
  Node.start settings (.numbered 1) ⟨0⟩ .last .none none

/-- The end of a stream on which the request was sent to such a node. -/
def ended (maximum : UInt64) : Except Failure Unit × Session :=
  (world ⟨0⟩).follow attend (serveGossip ⟨0⟩ none).run
    (begun (limited maximum) (Wire.frame Wire.Layout.message asking))

theorem runs_ended (maximum : UInt64) :
    (world ⟨0⟩).Runs (serveGossip ⟨0⟩ none).run
      (begun (limited maximum) (Wire.frame Wire.Layout.message asking)) (ended maximum).1
      (ended maximum).2 :=
  runs_follow (answers_attend ⟨0⟩) _ _

theorem serve_counts_asked : ∃ result after,
    (world ⟨0⟩).Runs (serveGossip ⟨0⟩ none).run
      (begun (limited 65536) (Wire.frame Wire.Layout.message asking)) result after ∧
    Accounted (limited 65536) (Wire.frame Wire.Layout.message asking) result after ∧
    result.isOk ∧ after.written.length = 223 ∧ served after.node .arrg = 1 := by
  refine ⟨_, _, runs_ended 65536, ?_, ?_⟩
  · exact (serve_counts ⟨0⟩ none _ _).2 _ _ (runs_ended 65536)
  · decide +kernel

/-- A request is counted though nothing of the reply is written, which is too large. -/
theorem served_unwritten : ¬ ∀ (stream : StreamId) (outer : Option Limit) (node : Node)
    (sent : Wire.Bytes) (result : Except Failure Unit) (after : Session) (algorithm : Algorithm),
    node.settings.validate = .ok node.settings →
    (world stream).Runs (serveGossip stream outer).run (begun node sent) result after →
      (served after.node algorithm = served node algorithm + after.elsewhere algorithm + 1 ↔
        ∃ reply, Wire.encodeFrame Wire.Layout.message reply
          node.settings.maxMessageBytes.toNat = .ok after.written) ∧
      (∀ failure, result = .error failure →
        served after.node algorithm = served node algorithm + after.elsewhere algorithm) := by
  intro always
  obtain ⟨_, uncounted⟩ := always ⟨0⟩ none (limited 200) _ _ _ .arrg rfl (runs_ended 200)
  have fails : (ended 200).1.isOk = false := by decide +kernel
  have counted : served (ended 200).2.node .arrg = 1 := by decide +kernel
  have before : served (limited 200) .arrg + (ended 200).2.elsewhere .arrg = 0 := by decide +kernel
  cases ends : (ended 200).1 with
  | ok done =>
      rw [ends] at fails
      cases fails
  | error failure =>
      rw [uncounted failure ends, before] at counted
      cases counted

end Attending

end Overlay.Node.Serving
