import Mathlib.Algebra.Group.Nat.Defs
import Mathlib.Logic.Relation
import Overlay.Node.State
import Overlay.Proofs.Program.Interleaving

/-!
Two nodes that talk over a connection.

Each end has a program and a log of what it has heard and said. What one end hears is what the other
one has said, in that order; a prompt connection loses nothing and is in time for every deadline,
any other may break at any moment. Time is the same for both.

Each end is looked at alone, with what is known of the other one's log (`seat`). Where both keep to
a protocol, what the protocol promises holds throughout (`Sound.step`). A program is finite, so as
long as the two do not wait for each other, both come to their ends (`Orderly.concludes`).
-/

set_option autoImplicit false

namespace Overlay.Conversation

open Surroundings

/-- What has gone over a connection at one of its ends. -/
structure Log where
  heard : Wire.Bytes
  said : Wire.Bytes
  /-- The end was closed. -/
  gone : Bool
deriving DecidableEq, Inhabited, Repr

namespace Log

def fresh : Log := ⟨[], [], false⟩

/-- The bytes that are on their way to an end. -/
def unheard (mine theirs : Log) : Wire.Bytes := theirs.said.drop mine.heard.length

def hears (log : Log) (bytes : Wire.Bytes) : Log := { log with heard := log.heard ++ bytes }

def utters (log : Log) (bytes : Wire.Bytes) : Log := { log with said := log.said ++ bytes }

def closes (log : Log) : Log := { log with gone := true }

end Log

/-- How a connection answers a request at one of its ends, where `mine` is the log there. Time is
counted in sixty-four bits. -/
def Answers (prompt : Bool) (mine theirs : Log) : (request : Request) → request.Reply → Log → Prop
  | .connect .., .opened _, after => after = mine
  | .connect .., _, after => prompt = false ∧ after = mine
  | .read _ count _, .bytes content, after => count ≤ (mine.unheard theirs).length ∧
    content = (mine.unheard theirs).take count ∧ after = mine.hears content
  | .read _ count _, .ended, after =>
    (prompt = false ∨ theirs.gone ∧ (mine.unheard theirs).length < count) ∧
      ∃ part, part <+: (mine.unheard theirs).take count ∧ after = mine.hears part
  | .read _ count _, .expired, after => prompt = false ∧
    ∃ part, part <+: (mine.unheard theirs).take count ∧ after = mine.hears part
  | .write _ bytes _, .written, after => after = mine.utters bytes
  | .write _ bytes _, .broken, after => (prompt = false ∨ theirs.gone) ∧
    ∃ part, part <+: bytes ∧ after = mine.utters part
  | .write _ bytes _, .expired, after => prompt = false ∧
    ∃ part, part <+: bytes ∧ after = mine.utters part
  | .close _, _, after => after = mine.closes
  | .moment, moment, after => moment.tick < 2 ^ 64 ∧ after = mine
  | _, _, after => after = mine

/-- An end can do nothing but wait for the other one. -/
def Stuck (mine theirs : Log) : Request → Prop
  | .read _ count _ => (mine.unheard theirs).length < count ∧ theirs.gone = false
  | _ => False

/-- An answer of a prompt connection, if an end does not have to wait. -/
def answer? (mine theirs : Log) : (request : Request) → Option (request.Reply × Log)
  | .read _ count _ =>
    let content := (mine.unheard theirs).take count
    if count ≤ (mine.unheard theirs).length then some (.bytes content, mine.hears content)
    else if theirs.gone then some (.ended, mine.hears []) else none
  | .write _ bytes _ => some (.written, mine.utters bytes)
  | .close _ => some ((), mine.closes)
  | .connect .. => some (.opened ⟨0⟩, mine)
  | .moment => some (⟨0, 0⟩, mine)
  | .pause .. => some (.elapsed, mine)
  | .launch _ => some (⟨0⟩, mine)
  | .finish _ | .raise _ | .join _ | .report _ => some ((), mine)

/-- What each end has heard is what the other one has said. -/
structure Linked (mine theirs : Log) : Prop where
  hither : mine.heard <+: theirs.said
  thither : theirs.heard <+: mine.said

theorem Linked.symm {mine theirs : Log} (linked : Linked mine theirs) : Linked theirs mine :=
  ⟨linked.thither, linked.hither⟩

/-- What may become of a log. -/
structure Grows (before after : Log) : Prop where
  heard : before.heard <+: after.heard
  said : before.said <+: after.said
  gone : before.gone → after.gone

theorem Grows.refl (log : Log) : Grows log log :=
  ⟨List.prefix_rfl, List.prefix_rfl, id⟩

theorem Grows.trans {first second third : Log} (before : Grows first second)
    (after : Grows second third) : Grows first third :=
  ⟨before.heard.trans after.heard, before.said.trans after.said, after.gone ∘ before.gone⟩

section Answers

variable {prompt : Bool} {mine theirs after : Log} {request : Request} {reply : request.Reply}

theorem heard_append_unheard (linked : Linked mine theirs) :
    mine.heard ++ mine.unheard theirs = theirs.said := by
  obtain ⟨rest, said⟩ := linked.hither
  rw [Log.unheard, ← said, List.drop_left]

/-- What an end hears is what was on its way. -/
theorem Linked.hears {part : Wire.Bytes} (linked : Linked mine theirs)
    (coming : part <+: mine.unheard theirs) : Linked (mine.hears part) theirs where
  hither := by
    rw [← heard_append_unheard linked]
    exact (List.prefix_append_right_inj _).mpr coming
  thither := linked.thither

theorem Linked.utters (linked : Linked mine theirs) (bytes : Wire.Bytes) :
    Linked (mine.utters bytes) theirs where
  hither := linked.hither
  thither := linked.thither.trans (List.prefix_append _ _)

/-- A read lets an end hear as much as it asked for, or less. -/
theorem Answers.reads {stream : StreamId} {count : Nat} {deadline : Option Instant}
    {reply : Reading}
    (answer : Answers prompt mine theirs (.read stream count deadline) reply after) :
    ∃ part, part <+: (mine.unheard theirs).take count ∧ after = mine.hears part := by
  cases reply with
  | bytes content =>
      obtain ⟨_, rfl, same⟩ := answer
      exact ⟨_, List.prefix_rfl, same⟩
  | ended => exact answer.2
  | expired => exact answer.2

/-- A write says all that it was asked to, or the first part of it. -/
theorem Answers.writes {stream : StreamId} {bytes : Wire.Bytes} {deadline : Option Instant}
    {reply : Writing}
    (answer : Answers prompt mine theirs (.write stream bytes deadline) reply after) :
    ∃ part, part <+: bytes ∧ after = mine.utters part := by
  cases reply with
  | written => exact ⟨bytes, List.prefix_rfl, answer⟩
  | broken => exact answer.2
  | expired => exact answer.2

theorem Answers.connects {address : SocketAddress} {tag : Wire.ServiceTag} {patience : Duration}
    {deadline : Instant} {reply : Connecting}
    (answer : Answers prompt mine theirs (.connect address tag patience deadline) reply after) :
    after = mine := by
  cases reply with
  | opened stream => exact answer
  | failed fault => exact answer.2
  | expired => exact answer.2

/-- An answer lets an end hear something, say something or close, or does nothing to its log. -/
theorem Answers.change (answer : Answers prompt mine theirs request reply after) :
    after = mine ∨ after = mine.closes ∨ (∃ bytes, after = mine.utters bytes) ∨
      ∃ part, part <+: mine.unheard theirs ∧ after = mine.hears part := by
  cases request with
  | connect => exact Or.inl answer.connects
  | read stream count deadline =>
      obtain ⟨part, coming, same⟩ := answer.reads
      exact Or.inr (Or.inr (Or.inr ⟨part, coming.trans (List.take_prefix _ _), same⟩))
  | write stream bytes deadline =>
      obtain ⟨part, _, same⟩ := answer.writes
      exact Or.inr (Or.inr (Or.inl ⟨part, same⟩))
  | close => exact Or.inr (Or.inl answer)
  | moment => exact Or.inl answer.2
  | _ => exact Or.inl answer

theorem Linked.answered (linked : Linked mine theirs)
    (answer : Answers prompt mine theirs request reply after) : Linked after theirs := by
  rcases answer.change with rfl | rfl | ⟨bytes, rfl⟩ | ⟨part, coming, rfl⟩
  · exact linked
  · exact ⟨linked.hither, linked.thither⟩
  · exact linked.utters bytes
  · exact linked.hears coming

theorem Answers.grows (answer : Answers prompt mine theirs request reply after) :
    Grows mine after := by
  rcases answer.change with rfl | rfl | ⟨bytes, rfl⟩ | ⟨part, _, rfl⟩
  · exact .refl after
  · exact ⟨List.prefix_rfl, List.prefix_rfl, fun _ => rfl⟩
  · exact ⟨List.prefix_rfl, List.prefix_append _ _, id⟩
  · exact ⟨List.prefix_append _ _, List.prefix_rfl, id⟩

theorem answers_of_answer? (given : answer? mine theirs request = some (reply, after)) :
    Answers prompt mine theirs request reply after := by
  cases request with
  | read stream count deadline =>
      simp only [answer?] at given
      split at given
      · next enough =>
          cases given
          exact ⟨enough, rfl, rfl⟩
      · next short =>
          split at given
          · next gone =>
              cases given
              exact ⟨Or.inr ⟨gone, Nat.lt_of_not_le short⟩, [], List.nil_prefix, rfl⟩
          · cases given
  | moment =>
      cases given
      exact ⟨Nat.two_pow_pos 64, rfl⟩
  | _ =>
      cases given
      rfl

theorem stuck_of_answer? (missing : answer? mine theirs request = none) :
    Stuck mine theirs request := by
  cases request with
  | read stream count deadline =>
      simp only [answer?] at missing
      split at missing
      · cases missing
      · next short =>
          split at missing
          · cases missing
          · next there => exact ⟨Nat.lt_of_not_le short, eq_false_of_ne_true there⟩
  | _ => cases missing

/-- An end that is not stuck gets some answer. -/
theorem exists_answers (free : ¬ Stuck mine theirs request) :
    ∃ reply after, Answers prompt mine theirs request reply after := by
  cases given : answer? mine theirs request with
  | none => exact absurd (stuck_of_answer? given) free
  | some answer => exact ⟨answer.1, answer.2, answers_of_answer? given⟩

end Answers

/-- One end of a connection, as it sees itself and the other one's log. -/
structure Desk where
  node : Node
  mine : Log
  theirs : Log

/-- Time passes at a node, and nothing else happens to it. -/
abbrev Passes (now after : Node) : Prop :=
  ∃ time, now.clock ≤ time ∧ after = { now with clock := time }

theorem Passes.trans {first second third : Node} (before : Passes first second)
    (after : Passes second third) : Passes first third := by
  obtain ⟨time, onward, rfl⟩ := before
  obtain ⟨later, further, rfl⟩ := after
  exact ⟨later, UInt64.le_trans onward further, rfl⟩

/-- While an end waits, time passes and the other one goes on. -/
structure Later (now after : Desk) : Prop where
  node : Passes now.node after.node
  mine : after.mine = now.mine
  theirs : Grows now.theirs after.theirs

theorem Later.refl (now : Desk) : Later now now :=
  ⟨⟨now.node.clock, UInt64.le_refl _, rfl⟩, rfl, .refl _⟩

theorem Later.trans {first second third : Desk} (before : Later first second)
    (after : Later second third) : Later first third where
  node := before.node.trans after.node
  mine := after.mine.trans before.mine
  theirs := before.theirs.trans after.theirs

/-- What one end relies on and what it keeps to: what holds of both logs, and what it may ask for.
Its own log comes first. -/
structure Manners where
  agreed : Log → Log → Prop
  may : Request → Log → Log → Prop

/-- An end that keeps to its manners leaves what is agreed as it is. What it may ask for, it may ask
for later too. -/
structure Manners.Lawful (manners : Manners) (prompt : Bool) : Prop where
  keeps : ∀ mine theirs request reply after, Linked mine theirs → manners.agreed mine theirs →
    manners.may request mine theirs → Answers prompt mine theirs request reply after →
    manners.agreed after theirs
  stable : ∀ request mine theirs later, manners.may request mine theirs → Grows theirs later →
    manners.may request mine later

/-- One end of a connection whose other end keeps to what is agreed. -/
def seat (prompt : Bool) (manners : Manners) : Surroundings Node Desk where
  look := Desk.node
  leave desk node := { desk with node }
  Answers request now reply after := ∃ middle log, Later now middle ∧
    Linked middle.mine middle.theirs ∧ manners.agreed middle.mine middle.theirs ∧
    Conversation.Answers prompt middle.mine middle.theirs request reply log ∧
    after = { middle with mine := log }
  Accepts _ _ := True
  Admits request now := manners.may request now.mine now.theirs

/-- What is left of a program at an end, up to its next request. -/
def Ready {α : Type} (prompt : Bool) (manners : Manners) (post : α → Desk → Prop)
    (now : Desk) : Program Node α → Prop
  | .done value => ∃ before, Later before now ∧ post value before
  | .ask request next => (seat prompt manners).Keeps (.ask request next) post now
  | _ => False

section Ready

variable {α : Type} {prompt : Bool} {manners : Manners} {post : α → Desk → Prop} {now after : Desk}
  {program : Program Node α}

theorem ready_settle (keeps : (seat prompt manners).Keeps program post now) :
    Ready prompt manners post { now with node := (program.settle now.node).2 }
      (program.settle now.node).1 := by
  induction program generalizing now with
  | done value => exact ⟨now, .refl now, keeps⟩
  | get next ih => exact ih now.node keeps
  | put state next ih => exact @ih { now with node := state } keeps.2
  | ask request next ih => exact keeps

theorem Ready.later (ready : Ready prompt manners post now program)
    (lawful : manners.Lawful prompt) (later : Later now after) :
    Ready prompt manners post after program := by
  cases program with
  | done value =>
      obtain ⟨before, since, holds⟩ := ready
      exact ⟨before, since.trans later, holds⟩
  | ask request next =>
      obtain ⟨may, each⟩ := ready
      refine ⟨?_, fun reply ended answer => ?_⟩
      · change manners.may request after.mine after.theirs
        rw [later.mine]
        exact lawful.stable request _ _ _ may later.theirs
      · obtain ⟨middle, log, wait, rest⟩ := answer
        exact each reply ended ⟨middle, log, later.trans wait, rest⟩
  | get => exact ready.elim
  | put => exact ready.elim

end Ready

/-- One end of a connection, with what is left of its program. -/
structure Side (α : Type) where
  program : Program Node α
  node : Node
  log : Log

namespace Side

variable {α : Type}

/-- An end that has come to its next request. -/
def settled (program : Program Node α) (node : Node) (log : Log) : Side α :=
  ⟨(program.settle node).1, (program.settle node).2, log⟩

/-- The same end at another time. -/
def waiting (side : Side α) (time : Timestamp) : Side α :=
  { side with node := { side.node with clock := time } }

end Side

/-- Two nodes that talk: the one that connected, and the one that serves it. -/
structure Talk (α β : Type) where
  caller : Side α
  callee : Side β

/-- Both begin. Before the one has connected, nothing comes to the other. -/
def Talk.start {α β : Type} (caller : Program Node α) (calling : Node) (callee : Program Node β)
    (called : Node) : Talk α β :=
  ⟨.settled caller calling .fresh, .settled callee called .fresh⟩

/-- At some moment one of the two gets an answer and goes on. -/
inductive Step {α β : Type} (prompt : Bool) (now : Talk α β) : Talk α β → Prop
  | caller {request : Request} {next : request.Reply → Program Node α} {reply : request.Reply}
      {log : Log} (time : Timestamp) (since : now.caller.node.clock ≤ time)
      (also : now.callee.node.clock ≤ time) (waits : now.caller.program = .ask request next)
      (answer : Answers prompt now.caller.log now.callee.log request reply log) :
      Step prompt now
        ⟨.settled (next reply) { now.caller.node with clock := time } log, now.callee.waiting time⟩
  | callee {request : Request} {next : request.Reply → Program Node β} {reply : request.Reply}
      {log : Log} (time : Timestamp) (since : now.callee.node.clock ≤ time)
      (also : now.caller.node.clock ≤ time) (waits : now.callee.program = .ask request next)
      (answer : Answers prompt now.callee.log now.caller.log request reply log) :
      Step prompt now
        ⟨now.caller.waiting time, .settled (next reply) { now.callee.node with clock := time } log⟩

/-- What may come of a conversation. -/
abbrev Steps {α β : Type} (prompt : Bool) : Talk α β → Talk α β → Prop :=
  Relation.ReflTransGen (Step prompt)

/-- However a conversation goes on, both come to their ends, and something holds then. -/
inductive Concludes {α β : Type} (prompt : Bool) (post : α → β → Talk α β → Prop) :
    Talk α β → Prop
  | ended {now : Talk α β} {value : α} {answer : β} (caller : now.caller.program = .done value)
      (callee : now.callee.program = .done answer) (holds : post value answer now) :
      Concludes prompt post now
  | onward {now : Talk α β} (goes : ∃ after, Step prompt now after)
      (each : ∀ after, Step prompt now after → Concludes prompt post after) :
      Concludes prompt post now

/-- What two ends agree on, and what each of them may ask for. -/
structure Protocol where
  /-- The log of the one that connected comes first. -/
  accord : Log → Log → Prop
  caller : Request → Log → Log → Prop
  /-- Its own log comes first. -/
  callee : Request → Log → Log → Prop

namespace Protocol

def callerManners (protocol : Protocol) : Manners := ⟨protocol.accord, protocol.caller⟩

def calleeManners (protocol : Protocol) : Manners := ⟨flip protocol.accord, protocol.callee⟩

/-- Both ends keep up what they agree on. -/
structure Lawful (protocol : Protocol) (prompt : Bool) : Prop where
  begins : protocol.accord .fresh .fresh
  caller : protocol.callerManners.Lawful prompt
  callee : protocol.calleeManners.Lawful prompt

/-- The two ends never wait for each other. -/
def Free (protocol : Protocol) : Prop :=
  ∀ caller callee asked wanted, Linked caller callee → protocol.accord caller callee →
    protocol.caller asked caller callee → protocol.callee wanted callee caller →
    ¬ (Stuck caller callee asked ∧ Stuck callee caller wanted)

end Protocol

section Talk

variable {α β : Type} {protocol : Protocol} {prompt : Bool} {postCaller : α → Desk → Prop}
  {postCallee : β → Desk → Prop} {now after : Talk α β}

namespace Talk

/-- What the one that connected sees. -/
def near (talk : Talk α β) : Desk := ⟨talk.caller.node, talk.caller.log, talk.callee.log⟩

/-- What the one that serves it sees. -/
def far (talk : Talk α β) : Desk := ⟨talk.callee.node, talk.callee.log, talk.caller.log⟩

end Talk

/-- What holds of a conversation at any time. -/
structure Sound (protocol : Protocol) (prompt : Bool) (postCaller : α → Desk → Prop)
    (postCallee : β → Desk → Prop) (now : Talk α β) : Prop where
  linked : Linked now.caller.log now.callee.log
  accord : protocol.accord now.caller.log now.callee.log
  caller : Ready prompt protocol.callerManners postCaller now.near now.caller.program
  callee : Ready prompt protocol.calleeManners postCallee now.far now.callee.program

/-- What an end makes of an answer. -/
theorem Ready.answered {γ : Type} {manners : Manners} {post : γ → Desk → Prop} {desk : Desk}
    {request : Request} {next : request.Reply → Program Node γ} {reply : request.Reply} {log : Log}
    {time : Timestamp} (ready : Ready prompt manners post desk (.ask request next))
    (lawful : manners.Lawful prompt) (linked : Linked desk.mine desk.theirs)
    (agreed : manners.agreed desk.mine desk.theirs) (since : desk.node.clock ≤ time)
    (answer : Answers prompt desk.mine desk.theirs request reply log) :
    manners.agreed log desk.theirs ∧
      let settled := (next reply).settle { desk.node with clock := time }
      Ready prompt manners post ⟨settled.2, log, desk.theirs⟩ settled.1 := by
  refine ⟨lawful.keeps _ _ _ _ _ linked agreed ready.1 answer, ?_⟩
  let middle : Desk := { desk with node := { desk.node with clock := time } }
  have waited : Later desk middle := ⟨⟨time, since, rfl⟩, rfl, .refl _⟩
  have keeps := ready.2 reply { middle with mine := log }
    ⟨middle, log, waited, linked, agreed, answer, rfl⟩
  exact ready_settle keeps

theorem Sound.step (sound : Sound protocol prompt postCaller postCallee now)
    (lawful : protocol.Lawful prompt) (step : Step prompt now after) :
    Sound protocol prompt postCaller postCallee after := by
  cases step with
  | @caller request next reply log time since also waits answer =>
      have ready := sound.caller
      rw [waits] at ready
      obtain ⟨agreed, goesOn⟩ :=
        ready.answered lawful.caller sound.linked sound.accord since answer
      have later : Later now.far { now.far with
          node := { now.callee.node with clock := time }, theirs := log } :=
        ⟨⟨time, also, rfl⟩, rfl, answer.grows⟩
      exact ⟨sound.linked.answered answer, agreed, goesOn, sound.callee.later lawful.callee later⟩
  | @callee request next reply log time since also waits answer =>
      have ready := sound.callee
      rw [waits] at ready
      obtain ⟨agreed, goesOn⟩ :=
        ready.answered lawful.callee sound.linked.symm sound.accord since answer
      have later : Later now.near { now.near with
          node := { now.caller.node with clock := time }, theirs := log } :=
        ⟨⟨time, also, rfl⟩, rfl, answer.grows⟩
      exact ⟨(sound.linked.symm.answered answer).symm, agreed,
        sound.caller.later lawful.caller later, goesOn⟩

theorem sound_start {caller : Program Node α} {calling : Node} {callee : Program Node β}
    {called : Node} (lawful : protocol.Lawful prompt)
    (callerKeeps : (seat prompt protocol.callerManners).Keeps caller postCaller
      ⟨calling, .fresh, .fresh⟩)
    (calleeKeeps : (seat prompt protocol.calleeManners).Keeps callee postCallee
      ⟨called, .fresh, .fresh⟩) :
    Sound protocol prompt postCaller postCallee (.start caller calling callee called) where
  linked := ⟨List.prefix_rfl, List.prefix_rfl⟩
  accord := lawful.begins
  caller := ready_settle callerKeeps
  callee := ready_settle calleeKeeps

theorem Sound.steps (sound : Sound protocol prompt postCaller postCallee now)
    (lawful : protocol.Lawful prompt) (steps : Steps prompt now after) :
    Sound protocol prompt postCaller postCallee after := by
  induction steps with
  | refl => exact sound
  | tail _ step ih => exact ih.step lawful step

/-- What each end has left when it is done. -/
theorem Sound.ends {value : α} {answer : β}
    (sound : Sound protocol prompt postCaller postCallee now)
    (caller : now.caller.program = .done value) (callee : now.callee.program = .done answer) :
    (∃ before, Later before now.near ∧ postCaller value before) ∧
      ∃ before, Later before now.far ∧ postCallee answer before := by
  have first := sound.caller
  have second := sound.callee
  rw [caller] at first
  rw [callee] at second
  exact ⟨first, second⟩

theorem exists_later (first second : Timestamp) : ∃ time, first ≤ time ∧ second ≤ time := by
  rcases UInt64.le_total first.millis second.millis with before | before
  · exact ⟨second, before, UInt64.le_refl _⟩
  · exact ⟨first, UInt64.le_refl _, before⟩

theorem exists_step_caller {request : Request} {next : request.Reply → Program Node α}
    (waits : now.caller.program = .ask request next)
    (free : ¬ Stuck now.caller.log now.callee.log request) : ∃ after, Step prompt now after := by
  obtain ⟨time, since, also⟩ := exists_later now.caller.node.clock now.callee.node.clock
  obtain ⟨reply, log, answer⟩ := exists_answers free
  exact ⟨_, .caller time since also waits answer⟩

theorem exists_step_callee {request : Request} {next : request.Reply → Program Node β}
    (waits : now.callee.program = .ask request next)
    (free : ¬ Stuck now.callee.log now.caller.log request) : ∃ after, Step prompt now after := by
  obtain ⟨time, since, also⟩ := exists_later now.callee.node.clock now.caller.node.clock
  obtain ⟨reply, log, answer⟩ := exists_answers free
  exact ⟨_, .callee time since also waits answer⟩

/-- Nobody waits for an end that is gone. -/
theorem not_stuck_of_gone {mine theirs : Log} {request : Request} (gone : theirs.gone) :
    ¬ Stuck mine theirs request := by
  cases request with
  | read stream count deadline =>
      rintro ⟨_, there⟩
      rw [gone] at there
      cases there
  | _ => exact id

/-- Where nobody leaves without closing and the two never wait for each other, something can happen
as long as one of them is not done. -/
theorem Sound.goes (sound : Sound protocol prompt postCaller postCallee now)
    (free : protocol.Free) (callerGone : ∀ value desk, postCaller value desk → desk.mine.gone)
    (calleeGone : ∀ answer desk, postCallee answer desk → desk.mine.gone) :
    (∃ value answer, now.caller.program = .done value ∧ now.callee.program = .done answer) ∨
      ∃ after, Step prompt now after := by
  have first := sound.caller
  have second := sound.callee
  have gone {before after : Desk} (later : Later before after) (closed : before.mine.gone) :
      after.mine.gone := by
    rw [later.mine]
    exact closed
  cases calling : now.caller.program with
  | get => exact (calling ▸ first).elim
  | put => exact (calling ▸ first).elim
  | done value =>
      rw [calling] at first
      obtain ⟨before, later, holds⟩ := first
      cases serving : now.callee.program with
      | get => exact (serving ▸ second).elim
      | put => exact (serving ▸ second).elim
      | done answer => exact Or.inl ⟨value, answer, rfl, rfl⟩
      | ask request next =>
          refine Or.inr (exists_step_callee serving (not_stuck_of_gone ?_))
          exact gone later (callerGone value before holds)
  | ask asked next =>
      rw [calling] at first
      refine Or.inr ?_
      cases serving : now.callee.program with
      | get => exact (serving ▸ second).elim
      | put => exact (serving ▸ second).elim
      | done answer =>
          rw [serving] at second
          obtain ⟨before, later, holds⟩ := second
          refine exists_step_caller calling (not_stuck_of_gone ?_)
          exact gone later (calleeGone answer before holds)
      | ask wanted rest =>
          rw [serving] at second
          by_cases stuck : Stuck now.caller.log now.callee.log asked
          · refine exists_step_callee serving fun also => ?_
            exact free _ _ _ _ sound.linked sound.accord first.1 second.1 ⟨stuck, also⟩
          · exact exists_step_caller calling stuck

/-- Both have come to their ends. -/
structure Completed (protocol : Protocol) (prompt : Bool) (postCaller : α → Desk → Prop)
    (postCallee : β → Desk → Prop) (value : α) (answer : β) (now : Talk α β) : Prop where
  sound : Sound protocol prompt postCaller postCallee now
  caller : now.caller.program = .done value
  callee : now.callee.program = .done answer

/-- Two ends that keep to a lawful protocol, never wait for each other and close before they
leave. -/
structure Orderly (protocol : Protocol) (prompt : Bool) (postCaller : α → Desk → Prop)
    (postCallee : β → Desk → Prop) : Prop where
  lawful : protocol.Lawful prompt
  free : protocol.Free
  callerGone : ∀ value desk, postCaller value desk → desk.mine.gone
  calleeGone : ∀ answer desk, postCallee answer desk → desk.mine.gone

theorem Orderly.concludes_of_steps (orderly : Orderly protocol prompt postCaller postCallee)
    (sound : Sound protocol prompt postCaller postCallee now)
    (each : ∀ after, Step prompt now after →
      Sound protocol prompt postCaller postCallee after →
        Concludes prompt (Completed protocol prompt postCaller postCallee) after) :
    Concludes prompt (Completed protocol prompt postCaller postCallee) now := by
  rcases sound.goes orderly.free orderly.callerGone orderly.calleeGone with
    ⟨value, answer, caller, callee⟩ | goes
  · exact .ended caller callee ⟨sound, caller, callee⟩
  · exact .onward goes fun after step => each after step (sound.step orderly.lawful step)

/-- Both come to their ends. The induction is on what is left of the two programs. -/
theorem Orderly.concludes_settled (orderly : Orderly protocol prompt postCaller postCallee)
    (caller : Program Node α) (callee : Program Node β) (calling called : Node)
    (mine theirs : Log)
    (sound : Sound protocol prompt postCaller postCallee
      ⟨.settled caller calling mine, .settled callee called theirs⟩) :
    Concludes prompt (Completed protocol prompt postCaller postCallee)
      ⟨.settled caller calling mine, .settled callee called theirs⟩ := by
  -- a step of one end leaves the program of the other as it is: hence one induction within the
  -- other, and every callee in the outer hypothesis
  induction caller generalizing callee calling called mine theirs with
  | get next ih => exact ih calling callee calling called mine theirs sound
  | put state next ih => exact ih callee state called mine theirs sound
  | done value =>
      induction callee generalizing calling called mine theirs with
      | get next ih => exact ih called calling called mine theirs sound
      | put state next ih => exact ih calling state mine theirs sound
      | done answer =>
          refine orderly.concludes_of_steps sound fun after step _ => ?_
          cases step with
          | caller time since also waits answer => cases waits
          | callee time since also waits answer => cases waits
      | ask request next ih =>
          refine orderly.concludes_of_steps sound fun after step sound => ?_
          cases step with
          | caller time since also waits answer => cases waits
          | callee time since also waits answer =>
              cases waits
              exact ih _ _ _ _ _ sound
  | ask asked further ihCaller =>
      induction callee generalizing calling called mine theirs with
      | get next ih => exact ih called calling called mine theirs sound
      | put state next ih => exact ih calling state mine theirs sound
      | done answer =>
          refine orderly.concludes_of_steps sound fun after step sound => ?_
          cases step with
          | caller time since also waits answer =>
              cases waits
              exact ihCaller _ (.done _) _ _ _ _ sound
          | callee time since also waits answer => cases waits
      | ask request next ih =>
          refine orderly.concludes_of_steps sound fun after step sound => ?_
          cases step with
          | caller time since also waits answer =>
              cases waits
              exact ihCaller _ (.ask request next) _ _ _ _ sound
          | callee time since also waits answer =>
              cases waits
              exact ih _ _ _ _ _ sound

theorem Orderly.concludes (orderly : Orderly protocol prompt postCaller postCallee)
    {caller : Program Node α} {calling : Node} {callee : Program Node β} {called : Node}
    (callerKeeps : (seat prompt protocol.callerManners).Keeps caller postCaller
      ⟨calling, .fresh, .fresh⟩)
    (calleeKeeps : (seat prompt protocol.calleeManners).Keeps callee postCallee
      ⟨called, .fresh, .fresh⟩) :
    Concludes prompt (Completed protocol prompt postCaller postCallee)
      (.start caller calling callee called) :=
  orderly.concludes_settled caller callee calling called .fresh .fresh
    (sound_start orderly.lawful callerKeeps calleeKeeps)

theorem Concludes.mono {weak strong : α → β → Talk α β → Prop}
    (concludes : Concludes prompt strong now)
    (implies : ∀ value answer after, strong value answer after → weak value answer after) :
    Concludes prompt weak now := by
  induction concludes with
  | ended caller callee holds => exact .ended caller callee (implies _ _ _ holds)
  | onward goes _ ih => exact .onward goes ih

theorem not_step_of_done {value : α} {answer : β} (caller : now.caller.program = .done value)
    (callee : now.callee.program = .done answer) : ¬ Step prompt now after := by
  intro step
  cases step with
  | caller _ _ _ waits =>
      rw [caller] at waits
      cases waits
  | callee _ _ _ waits =>
      rw [callee] at waits
      cases waits

/-- A conversation that has come to its end has come to what it concludes with. -/
theorem Concludes.ends {post : α → β → Talk α β → Prop} {value : α} {answer : β}
    (concludes : Concludes prompt post now) (steps : Steps prompt now after)
    (caller : after.caller.program = .done value) (callee : after.callee.program = .done answer) :
    post value answer after := by
  induction concludes with
  | ended first second holds =>
      rcases steps.cases_head with rfl | ⟨middle, step, _⟩
      · rw [caller] at first
        rw [callee] at second
        cases first
        cases second
        exact holds
      · exact absurd step (not_step_of_done first second)
  | onward goes _ ih =>
      rcases steps.cases_head with rfl | ⟨middle, step, rest⟩
      · obtain ⟨other, step⟩ := goes
        exact absurd step (not_step_of_done caller callee)
      · exact ih middle step rest

end Talk

section Play

variable {α β : Type} {prompt : Bool}

/-- An end after the next answer, if it does not have to wait for it. -/
def Side.move? (side : Side α) (theirs : Log) (time : Timestamp) : Option (Side α) :=
  match side.program with
  | .ask request next => (answer? side.log theirs request).map fun answer =>
    .settled (next answer.1) { side.node with clock := time } answer.2
  | _ => none

/-- A conversation at a moment that is not over, after the one that serves or else the one that
connected got an answer. -/
def Talk.move? (time : Timestamp) (now : Talk α β) : Option (Talk α β) :=
  if now.caller.node.clock ≤ time ∧ now.callee.node.clock ≤ time then
    match now.callee.move? now.caller.log time with
    | some callee => some ⟨now.caller.waiting time, callee⟩
    | none => (now.caller.move? now.callee.log time).map (⟨·, now.callee.waiting time⟩)
  else none

/-- What comes of a conversation at one moment within some steps. -/
def Talk.play (time : Timestamp) : Nat → Talk α β → Talk α β
  | 0, now => now
  | count + 1, now => ((now.move? time).map (Talk.play time count)).getD now

theorem Side.move?_eq_some (prompt : Bool) {side after : Side α} {theirs : Log} {time : Timestamp}
    (moved : side.move? theirs time = some after) :
    ∃ request next reply log, side.program = .ask request next ∧
      Answers prompt side.log theirs request reply log ∧
      after = .settled (next reply) { side.node with clock := time } log := by
  rw [Side.move?] at moved
  split at moved
  · next request next waits =>
      obtain ⟨answer, given, rfl⟩ := Option.map_eq_some_iff.mp moved
      exact ⟨request, next, answer.1, answer.2, waits, answers_of_answer? given, rfl⟩
  · cases moved

theorem step_move? {now after : Talk α β} {time : Timestamp}
    (moved : now.move? time = some after) : Step prompt now after := by
  rw [Talk.move?] at moved
  split at moved
  · next onward =>
      split at moved
      · next callee found =>
          obtain ⟨request, next, reply, log, waits, answer, rfl⟩ :=
            Side.move?_eq_some prompt found
          cases moved
          exact .callee time onward.2 onward.1 waits answer
      · obtain ⟨caller, found, rfl⟩ := Option.map_eq_some_iff.mp moved
        obtain ⟨request, next, reply, log, waits, answer, rfl⟩ :=
          Side.move?_eq_some prompt found
        exact .caller time onward.1 onward.2 waits answer
  · cases moved

theorem steps_play (prompt : Bool) (time : Timestamp) (count : Nat) (now : Talk α β) :
    Steps prompt now (now.play time count) := by
  induction count generalizing now with
  | zero => exact .refl
  | succ count ih =>
      rw [Talk.play]
      cases moved : now.move? time with
      | none => exact .refl
      | some after => exact (ih after).head (step_move? moved)

/-- What a program has come to. -/
def Side.result? (side : Side α) : Option α :=
  match side.program with
  | .done value => some value
  | _ => none

theorem Side.done_of_result? {side : Side α} {value : α} (found : side.result? = some value) :
    side.program = .done value := by
  rw [Side.result?] at found
  split at found
  · next other done =>
      cases found
      exact done
  · cases found

end Play

end Overlay.Conversation
