import Overlay.Proofs.Node.Echoing
import Overlay.Proofs.Wire.Canonical

/-!
A ping of anybody, however that one answers.

The other end sends some sequence of bytes, in time, and then ends its stream. It may also have
closed the connection altogether, which shows when a byte is to be sent. The ping gets a sample just
if the sequence is a block and a faithful echo of the bytes that it sends, and each other way of
answering has an error of its own, which leaves the node as it was (`ping_judges`).
-/

set_option autoImplicit false

namespace Overlay.Node.Trials

open Attempt Surroundings
open Echoing (numbers length_numbers numbers_succ)

section Sequences

variable {tries : Nat} {body : Wire.Bytes}

theorem numbers_front {few many : Nat} (le : few ≤ many) : numbers few <+: numbers many := by
  obtain ⟨more, rfl⟩ := Nat.exists_eq_add_of_le le
  rw [numbers, numbers, List.range_add, List.map_append]
  exact List.prefix_append _ _

/-- Why the bytes behind a block are no faithful echo of so many bytes: one is missing, or one is
another one, or the other end takes no more bytes. -/
inductive Fails (tries : Nat) (body : Wire.Bytes) : Failure → Bool → Prop
  | missing {count : Nat} (fewer : count < tries) (all : body = numbers count) :
      Fails tries body (.wire (.stream .endInNumber)) false
  | differs {count : Nat} {received : UInt8} (fewer : count < tries)
      (early : numbers count ++ [received] <+: body) (other : received ≠ UInt8.ofNat count) :
      Fails tries body (.echoMismatch (UInt8.ofNat count) received) false
  | refused {count : Nat} (fewer : count < tries) (early : numbers count <+: body) :
      Fails tries body (.wire (.stream .brokenPipe)) true

/-- Behind some numbers comes the next one, and nothing else. -/
theorem next_of_front {count : Nat} {received : UInt8}
    (early : numbers count ++ [received] <+: body) (further : numbers (count + 1) <+: body) :
    received = UInt8.ofNat count := by
  rw [numbers_succ] at further
  have same : numbers count ++ [received] = numbers count ++ [UInt8.ofNat count] := by
    refine (List.prefix_of_prefix_length_le early further ?_).eq_of_length ?_
    · rw [List.length_append, List.length_append]
      exact Nat.le_refl _
    · rw [List.length_append, List.length_append]
      rfl
  simpa using same

theorem Fails.not_faithful {failure : Failure} (fails : Fails tries body failure false) :
    ¬ numbers tries <+: body := by
  intro faithful
  cases fails with
  | missing fewer all =>
      have long := faithful.length_le
      rw [all, length_numbers, length_numbers] at long
      omega
  | differs fewer early other =>
      exact other (next_of_front early ((numbers_front fewer).trans faithful))

/-- What is there cannot be missing, so a byte that is another one comes before the end. -/
theorem not_missing {count found : Nat} {received : UInt8} (all : body = numbers found)
    (early : numbers count ++ [received] <+: body) : received = UInt8.ofNat count := by
  have short := early.length_le
  rw [all, List.length_append, length_numbers, length_numbers, List.length_singleton] at short
  exact next_of_front early (all ▸ numbers_front short)

/-- Of two bytes that are other ones, only the first counts. -/
theorem count_le_of_differs {count found : Nat} {received byte : UInt8}
    (early : numbers count ++ [received] <+: body) (differs : received ≠ UInt8.ofNat count)
    (there : numbers found ++ [byte] <+: body) : found ≤ count := by
  by_contra above
  have front : numbers (count + 1) <+: numbers found := numbers_front (Nat.lt_of_not_le above)
  exact differs (next_of_front early (front.trans ((List.prefix_append _ _).trans there)))

theorem Fails.unique {first second : Failure} (one : Fails tries body first false)
    (other : Fails tries body second false) : first = second := by
  cases one with
  | missing _ all =>
      cases other with
      | missing => rfl
      | differs _ early differs => exact absurd (not_missing all early) differs
  | differs _ early differs =>
      cases other with
      | missing _ all => exact absurd (not_missing all early) differs
      | differs _ there differs' =>
          obtain rfl := Nat.le_antisymm (count_le_of_differs there differs' early)
            (count_le_of_differs early differs there)
          have front := List.prefix_of_prefix_length_le early there (by simp)
          have same := front.eq_of_length (by simp)
          simp only [List.append_cancel_left_eq, List.singleton_inj] at same
          rw [same]

/-- What is not taken any more is a byte, after a faithful echo of those before. -/
theorem Fails.broken {failure : Failure} (fails : Fails tries body failure true) :
    failure = .wire (.stream .brokenPipe) ∧ ∃ count < tries, numbers count <+: body := by
  cases fails with
  | refused fewer early => exact ⟨rfl, _, fewer, early⟩

/-- A sequence begins with a block and a faithful echo of so many bytes. -/
def Echoes (count : Nat) (sequence : Wire.Bytes) : Prop :=
  ∃ block, block.length = Wire.CoordinateBlock.size ∧ block ++ numbers count <+: sequence

/-- The first byte that is another one than was sent. -/
def Differs (tries : Nat) (sequence : Wire.Bytes) (count : Nat) (received : UInt8) : Prop :=
  count < tries ∧ received ≠ UInt8.ofNat count ∧
    ∃ block, block.length = Wire.CoordinateBlock.size ∧
      block ++ (numbers count ++ [received]) <+: sequence

/-- A sequence ends within the block, or after a faithful echo of too few bytes. -/
def Short (tries : Nat) (sequence : Wire.Bytes) : Prop :=
  sequence.length < Wire.CoordinateBlock.size ∨ ∃ count < tries,
    ∃ block, block.length = Wire.CoordinateBlock.size ∧ sequence = block ++ numbers count

/-- What a sequence tells in its block. -/
def told (sequence : Wire.Bytes) : Wire.CoordinateBlock :=
  Wire.CoordinateBlock.decode (sequence.take Wire.CoordinateBlock.size)

theorem behind_block {sequence part : Wire.Bytes} :
    (∃ block, block.length = Wire.CoordinateBlock.size ∧ block ++ part <+: sequence) ↔
      Wire.CoordinateBlock.size ≤ sequence.length ∧
        part <+: sequence.drop Wire.CoordinateBlock.size := by
  constructor
  · rintro ⟨block, length, rest, rfl⟩
    rw [← length]
    constructor
    · simp only [List.length_append]
      omega
    · rw [List.append_assoc, List.drop_left]
      exact List.prefix_append _ _
  · rintro ⟨enough, rest, same⟩
    refine ⟨sequence.take Wire.CoordinateBlock.size, List.length_take_of_le enough, rest, ?_⟩
    rw [List.append_assoc, same, List.take_append_drop]

theorem Differs.fails {sequence : Wire.Bytes} {count : Nat} {received : UInt8}
    (differs : Differs tries sequence count received) :
    Fails tries (sequence.drop Wire.CoordinateBlock.size)
      (.echoMismatch (UInt8.ofNat count) received) false :=
  .differs differs.1 (behind_block.mp differs.2.2).2 differs.2.1

theorem Short.fails {sequence : Wire.Bytes} (short : Short tries sequence)
    (enough : Wire.CoordinateBlock.size ≤ sequence.length) :
    Fails tries (sequence.drop Wire.CoordinateBlock.size) (.wire (.stream .endInNumber)) false := by
  obtain ⟨count, fewer, block, length, rfl⟩ := short.resolve_left (Nat.not_lt_of_le enough)
  exact .missing fewer (List.drop_left' length)

end Sequences

/-- The end of a line at which a node pings. -/
structure Line where
  node : Node
  /-- What the other end has sent and the node has not read. -/
  coming : Wire.Bytes
  /-- The other end has taken a byte no more. -/
  refused : Bool
  /-- The moments at which the node has looked at the time. -/
  moments : List Instant

/-- The line before a ping that is answered by a sequence of bytes. -/
def Line.opening (node : Node) (sequence : Wire.Bytes) : Line := ⟨node, sequence, false, []⟩

/-- The other end has sent its bytes and nothing more comes. It takes what the node sends, or none
of it any more. Nothing takes too long, and nothing else happens to the node. -/
def answered : Surroundings Node Line where
  look := Line.node
  leave now node := { now with node }
  Answers
    | .moment, now, reply, after =>
      reply.tick < 2 ^ 64 ∧ after = { now with moments := now.moments ++ [reply] }
    | .connect .., now, reply, after => (∃ stream, reply = .opened stream) ∧ after = now
    | .read _ count _, now, reply, after =>
      if count ≤ now.coming.length then
        reply = .bytes (now.coming.take count) ∧
          after = { now with coming := now.coming.drop count }
      else reply = .ended ∧ after = { now with coming := [] }
    | .write .., now, reply, after =>
      reply = .written ∧ now.refused = false ∧ after = now ∨
        reply = .broken ∧ after = { now with refused := true }
    | _, now, _, after => after = now
  Accepts _ _ := True
  Admits _ _ := True

section Times

/-- How long a trial took: from before its byte was sent until it was back. -/
def duration (trial : Instant × Instant) : Binary64 :=
  (Duration.ofMillis (trial.2.tick - trial.1.tick)).millis

/-- The moments at which trials began and ended. -/
def stamps (trials : List (Instant × Instant)) : List Instant :=
  trials.flatMap fun trial => [trial.1, trial.2]

/-- The least time of some trials as a ping finds it; infinity before the first one. -/
def least (trials : List (Instant × Instant)) : Binary64 :=
  trials.foldl (fun best trial => Binary64.min best (duration trial)) .infinity

theorem least_concat (trials : List (Instant × Instant)) (trial : Instant × Instant) :
    least (trials ++ [trial]) = Binary64.min (least trials) (duration trial) := by
  rw [least, List.foldl_append]
  rfl

/-- A time that one of some trials took, and none of them less. -/
structure IsLeast (trials : List (Instant × Instant)) (time : Binary64) : Prop where
  taken : ∃ trial ∈ trials, time = duration trial
  least : ∀ trial ∈ trials, ¬ (duration trial).lt time

theorem isFinite_duration {trial : Instant × Instant} (small : trial.2.tick < 2 ^ 64) :
    (duration trial).isFinite :=
  (Bool.and_eq_true_iff.mp (Vivaldi.isRoundTrip_millis (Nat.lt_of_le_of_lt (Nat.sub_le _ _)
    small))).1

theorem min_of_isFinite {best measured : Binary64} (finite : best.isFinite) :
    Binary64.min best measured = if measured.lt best then measured else best := by
  have number : best.isNaN = false := by
    rw [Binary64.isFinite, bne_iff_ne] at finite
    rw [Binary64.isNaN, beq_false_of_ne finite, Bool.false_and]
  rw [Binary64.min, number, if_neg Bool.false_ne_true]

theorem not_lt_self {number : Binary64} (finite : number.isFinite) : ¬ number.lt number := by
  rw [Binary64.lt_iff_value_lt finite finite]
  exact lt_irrefl _

/-- A ping finds the least time of its trials. -/
theorem isLeast_least {trials : List (Instant × Instant)}
    (small : ∀ trial ∈ trials, trial.2.tick < 2 ^ 64) (some : trials ≠ []) :
    IsLeast trials (least trials) := by
  induction trials using List.reverseRecOn with
  | nil => exact absurd rfl some
  | append_singleton trials trial ih =>
      obtain ⟨before, last⟩ := List.forall_mem_append.mp small
      have finite := isFinite_duration (last trial (List.mem_singleton_self _))
      rw [least_concat]
      by_cases first : trials = []
      · subst first
        have measured : Binary64.min (least []) (duration trial) = duration trial := by
          change Binary64.min .infinity _ = _
          rw [Binary64.min, if_neg (by decide), if_pos (Binary64.lt_infinity finite)]
        rw [measured]
        refine ⟨⟨trial, List.mem_singleton_self _, rfl⟩, ?_⟩
        exact List.forall_mem_singleton.mpr (not_lt_self finite)
      · obtain ⟨⟨shortest, held, best⟩, lowest⟩ := ih before first
        have usable : (least trials).isFinite := by
          rw [best]
          exact isFinite_duration (before shortest held)
        rw [min_of_isFinite usable]
        split
        · next shorter =>
            refine ⟨⟨trial, List.mem_append_right _ (List.mem_singleton_self _), rfl⟩, ?_⟩
            refine List.forall_mem_append.mpr ⟨fun other member => ?_, ?_⟩
            · have lower := lowest other member
              have there := isFinite_duration (before other member)
              rw [Binary64.lt_iff_value_lt finite usable] at shorter
              rw [Binary64.lt_iff_value_lt there usable, not_lt] at lower
              rw [Binary64.lt_iff_value_lt there finite, not_lt]
              exact (shorter.trans_le lower).le
            · exact List.forall_mem_singleton.mpr (not_lt_self finite)
        · next longer =>
            refine ⟨⟨shortest, List.mem_append_left _ held, best⟩, ?_⟩
            exact List.forall_mem_append.mpr ⟨lowest, List.forall_mem_singleton.mpr longer⟩

end Times

section Rules

variable {now : Line} {stream : StreamId} {limit : Limit} {α : Type}

theorem keeps_now {post : Instant → Line → Prop}
    (holds : ∀ moment : Instant, moment.tick < 2 ^ 64 →
      post moment { now with moments := now.moments ++ [moment] }) :
    answered.Keeps Program.now post now := by
  refine ⟨trivial, fun moment after answer => ?_⟩
  obtain ⟨small, rfl⟩ := answer
  exact holds moment small

theorem keeps_receive {count : Nat} {fault : StreamFault}
    {post : Except Failure Wire.Bytes → Line → Prop}
    (arrived : count ≤ now.coming.length →
      post (.ok (now.coming.take count)) { now with coming := now.coming.drop count })
    (ended : now.coming.length < count →
      post (.error (.wire (.stream fault))) { now with coming := [] }) :
    answered.Keeps (receive stream count fault limit).run post now := by
  refine keeps_run_receive.mpr ⟨trivial, fun reading after answer => ?_⟩
  change if _ then _ else _ at answer
  split at answer
  · next enough =>
      obtain ⟨rfl, rfl⟩ := answer
      exact arrived enough
  · next short =>
      obtain ⟨rfl, rfl⟩ := answer
      exact ended (Nat.lt_of_not_le short)

theorem keeps_receiveByte {post : Except Failure UInt8 → Line → Prop}
    (arrived : ∀ byte rest, now.coming = byte :: rest →
      post (.ok byte) { now with coming := rest })
    (ended : now.coming = [] → post (.error (.wire (.stream .endInNumber))) now) :
    answered.Keeps (receiveByte stream limit).run post now := by
  refine keeps_run_receiveByte.mpr (keeps_receive (fun some => ?_) fun none => ?_)
  · obtain ⟨byte, rest, coming⟩ := List.exists_cons_of_length_pos some
    rw [coming]
    exact arrived byte rest coming
  · have nothing := List.eq_nil_of_length_eq_zero (Nat.lt_one_iff.mp none)
    rw [← nothing]
    exact ended nothing

theorem keeps_send {bytes : Wire.Bytes} {post : Except Failure Unit → Line → Prop}
    (written : post (.ok ()) now)
    (broken : post (.error (.wire (.stream .brokenPipe))) { now with refused := true }) :
    answered.Keeps (send stream bytes limit).run post now := by
  refine keeps_run_send.mpr ⟨trivial, fun writing after answer => ?_⟩
  rcases answer with ⟨rfl, _, rfl⟩ | ⟨rfl, rfl⟩
  · exact written
  · exact broken

theorem keeps_closing {attempt : Attempt Node α} {post : Except Failure α → Line → Prop}
    (keeps : answered.Keeps attempt.run post now) :
    answered.Keeps (closing stream attempt).run post now := by
  refine keeps_run_closing.mpr (keeps.mono fun result after holds => ⟨trivial, ?_⟩)
  intro _ closed answer
  cases answer
  exact holds

theorem keeps_report {event : Event} {post : Unit → Line → Prop} (holds : post () now) :
    answered.Keeps (Program.report event) post now := by
  refine ⟨trivial, fun _ after answer => ?_⟩
  cases answer
  exact holds

theorem keeps_draw {chance : Chance α} {post : α → Line → Prop}
    (holds : ∀ value dice, post value { now with node := { now.node with dice } }) :
    answered.Keeps (draw chance) post now := ⟨trivial, holds _ _⟩

theorem keeps_observe {sample : Vivaldi.Sample Binary64}
    {post : Except Failure Binary64 → Line → Prop} (usable : Vivaldi.isRoundTrip sample.roundTrip)
    (accepted : sample.remote.isFinite → ∀ predicted node, post (.ok predicted) { now with node })
    (rejected : ¬ sample.remote.isFinite → ∀ dice,
      post (.error (Vivaldi.Rejection.failure .remoteNotFinite))
        { now with node := { now.node with dice } }) :
    answered.Keeps (observe sample).run post now := by
  simp only [observe, keeps_run_bind, keeps_run_perform]
  refine keeps_draw fun spare dice => ?_
  simp only [keeps_run_get]
  cases finite : sample.remote.isFinite with
  | true =>
      have admissible : sample.isAdmissible := Bool.and_eq_true_iff.mpr ⟨usable, finite⟩
      rw [Vivaldi.State.apply_eq_ok.mpr ⟨admissible, rfl, rfl⟩]
      simp only [keeps_run_bind, keeps_run_modify]
      exact ⟨trivial, accepted finite _ _⟩
  | false =>
      rw [Vivaldi.State.apply, usable, finite]
      exact rejected (by rw [finite]; exact Bool.false_ne_true) dice

end Rules

section Ping

variable {tries : Nat} {body sequence : Wire.Bytes} {start : Instant} {node : Node} {now : Line}
  {stream : StreamId} {limit : Limit}

/-- Some trials went well: their bytes came back, and when each began and ended was noted. -/
structure Trying (body : Wire.Bytes) (start : Instant) (trials : List (Instant × Instant))
    (node : Node) (now : Line) : Prop where
  body : body = numbers trials.length ++ now.coming
  refused : now.refused = false
  moments : now.moments = start :: stamps trials
  small : ∀ trial ∈ trials, trial.2.tick < 2 ^ 64
  node : now.node = node

/-- All trials went well, or one failed. -/
def Tried (tries : Nat) (body : Wire.Bytes) (start : Instant) (node : Node)
    (result : Except Failure Binary64) (after : Line) : Prop :=
  match result with
  | .ok best => ∃ trials, trials.length = tries ∧ best = least trials ∧
      Trying body start trials node after
  | .error failure => Fails tries body failure after.refused ∧ after.node = node

section Trying

variable {trials : List (Instant × Instant)} {received : UInt8} {rest : Wire.Bytes}

theorem Trying.body_cons (state : Trying body start trials node now)
    (coming : now.coming = received :: rest) :
    body = numbers trials.length ++ [received] ++ rest := by
  rw [state.body, coming, List.append_assoc, List.singleton_append]

/-- One more trial went well. -/
theorem Trying.concat (state : Trying body start trials node now)
    (coming : now.coming = UInt8.ofNat trials.length :: rest) (before : Instant) {back : Instant}
    (small : back.tick < 2 ^ 64) : Trying body start (trials ++ [(before, back)]) node
      { now with coming := rest, moments := now.moments ++ [before] ++ [back] } where
  body := by
    rw [state.body_cons coming, List.length_append, List.length_singleton, numbers_succ]
  refused := state.refused
  moments := by
    rw [state.moments, stamps, stamps, List.flatMap_append]
    simp
  small := by
    refine List.forall_mem_append.mpr ⟨state.small, fun trial member => ?_⟩
    rw [List.mem_singleton.mp member]
    exact small
  node := state.node

end Trying

theorem keeps_echo {rounds : Nat} {trials : List (Instant × Instant)}
    (state : Trying body start trials node now) (sum : trials.length + rounds = tries) :
    answered.Keeps (echo stream limit rounds (UInt8.ofNat trials.length) (least trials)).run
      (Tried tries body start node) now := by
  induction rounds generalizing trials now with
  | zero => exact ⟨trials, sum, rfl, state⟩
  | succ rounds ih =>
      simp only [echo, keeps_run_bind, keeps_run_perform]
      have fewer : trials.length < tries := by omega
      have early : numbers trials.length <+: body := by
        rw [state.body]
        exact List.prefix_append _ _
      refine keeps_now fun before _ => keeps_send ?_ ⟨.refused fewer early, state.node⟩
      refine keeps_receiveByte (fun received rest coming => ?_) fun nothing => ?_
      · refine keeps_run_ite (fun other => ?_) fun same => ?_
        · have fails : Fails tries body (.echoMismatch (UInt8.ofNat trials.length) received)
              now.refused := by
            rw [state.refused]
            refine .differs fewer ?_ (bne_iff_ne.mp other)
            rw [state.body_cons coming]
            exact List.prefix_append _ _
          exact ⟨fails, state.node⟩
        · obtain rfl : received = UInt8.ofNat trials.length := by simpa using same
          simp only [keeps_run_bind, keeps_run_perform]
          refine keeps_now fun back small => ?_
          have further := ih (state.concat coming before small) (by
            rw [List.length_append, List.length_singleton]
            omega)
          rw [least_concat, List.length_append, List.length_singleton, UInt8.ofNat_add] at further
          exact further
      · have fails : Fails tries body (.wire (.stream .endInNumber)) now.refused := by
          rw [state.refused]
          refine .missing fewer ?_
          rw [state.body, nothing, List.append_nil]
        exact ⟨fails, state.node⟩

/-- What a measurement comes to: a sample after so many trials, or a failure. -/
def Measured (tries : Nat) (sequence : Wire.Bytes) (node : Node)
    (result : Except Failure (Vivaldi.Sample Binary64)) (after : Line) : Prop :=
  match result with
  | .ok sample => Wire.CoordinateBlock.size ≤ sequence.length ∧
      Wire.CoordinateBlock.mk sample.remote sample.remoteError = told sequence ∧
      ∃ start trials, trials.length = tries ∧ sample.roundTrip = least trials ∧
        Trying (sequence.drop Wire.CoordinateBlock.size) start trials node after
  | .error failure => after.node = node ∧
      (sequence.length < Wire.CoordinateBlock.size ∧ failure = .wire (.stream .endInBlock) ∧
          after.refused = false ∨
        Wire.CoordinateBlock.size ≤ sequence.length ∧
          Fails tries (sequence.drop Wire.CoordinateBlock.size) failure after.refused)

theorem keeps_measure (node : Node) (sequence : Wire.Bytes) (address : SocketAddress) :
    answered.Keeps (measure address).run (Measured (echoRounds node.settings) sequence node)
      (.opening node sequence) := by
  simp only [measure, keeps_run_bind, keeps_run_get, Attempt.limit, keeps_run_perform,
    keeps_run_pure, connected]
  refine keeps_now fun start _ => ⟨trivial, fun reply opened answer => ?_⟩
  obtain ⟨⟨stream, rfl⟩, rfl⟩ := answer
  refine keeps_closing ?_
  simp only [keeps_run_bind]
  refine keeps_receive (fun enough => ?_) fun short => ?_
  · have begun : Trying (sequence.drop Wire.CoordinateBlock.size) start [] node
        ⟨node, sequence.drop Wire.CoordinateBlock.size, false, [start]⟩ :=
      ⟨rfl, rfl, rfl, fun _ none => absurd none List.not_mem_nil, rfl⟩
    refine (keeps_echo begun (Nat.zero_add _)).mono fun result after tried => ?_
    cases result with
    | ok best =>
        obtain ⟨trials, all, rfl, state⟩ := tried
        exact ⟨enough, rfl, start, trials, all, rfl, state⟩
    | error failure => exact ⟨tried.2, Or.inr ⟨enough, tried.1⟩⟩
  · exact ⟨rfl, Or.inl ⟨short, rfl, rfl⟩⟩

/-- What a ping makes of the sequence that the other end sends. -/
structure Judged (tries : Nat) (sequence : Wire.Bytes) (update : Bool) (before : Node)
    (result : Except Failure (Vivaldi.Sample Binary64)) (after : Line) : Prop where
  /-- A sample comes of a faithful echo, and of nothing else. -/
  sampled : (∃ sample, result = .ok sample) ↔ Echoes tries sequence ∧ after.refused = false ∧
    (update → (told sequence).coordinate.isFinite)
  /-- It tells what the block tells, bit for bit, and the least time of the trials. -/
  sample : ∀ sample, result = .ok sample →
    (Wire.CoordinateBlock.mk sample.remote sample.remoteError).encode =
        sequence.take Wire.CoordinateBlock.size ∧
      ∃ start trials, after.moments = start :: stamps trials ∧ trials.length = tries ∧
        IsLeast trials sample.roundTrip
  differs : ∀ count received, Differs tries sequence count received → after.refused = false →
    result = .error (.echoMismatch (UInt8.ofNat count) received)
  short : Short tries sequence → after.refused = false →
    result = .error (.wire (.stream .endInBlock)) ∨
      result = .error (.wire (.stream .endInNumber))
  /-- A byte is refused by an end that has closed the connection. -/
  refused : after.refused → result = .error (.wire (.stream .brokenPipe)) ∧
    ∃ count < tries, Echoes count sequence
  /-- A place that is not finite does not move the own one. -/
  rejected : Echoes tries sequence → after.refused = false → update →
    ¬ (told sequence).coordinate.isFinite →
      result = .error (Vivaldi.Rejection.failure .remoteNotFinite)
  /-- No failure changes more of the node than its source of random numbers. -/
  unchanged : ∀ failure, result = .error failure → ∃ dice, after.node = { before with dice }

variable {update : Bool} {after : Line}

theorem judged_of_cut (cut : sequence.length < Wire.CoordinateBlock.size)
    (refused : after.refused = false) (same : after.node = node) :
    Judged tries sequence update node (.error (.wire (.stream .endInBlock))) after := by
  have short {part : Wire.Bytes} : ¬ ∃ block : Wire.Bytes,
      block.length = Wire.CoordinateBlock.size ∧ block ++ part <+: sequence :=
    fun there => Nat.not_le_of_lt cut (behind_block.mp there).1
  constructor
  case sampled => exact ⟨nofun, fun faithful => absurd faithful.1 short⟩
  case sample => exact nofun
  case differs => exact fun _ _ differs => absurd differs.2.2 short
  case short => exact fun _ _ => Or.inl rfl
  case refused => exact fun gone => absurd (refused.symm.trans gone) Bool.false_ne_true
  case rejected => exact fun faithful => absurd faithful short
  case unchanged => exact fun _ _ => ⟨node.dice, same⟩

theorem judged_of_fails {failure : Failure}
    (enough : Wire.CoordinateBlock.size ≤ sequence.length)
    (fails : Fails tries (sequence.drop Wire.CoordinateBlock.size) failure after.refused)
    (same : after.node = node) : Judged tries sequence update node (.error failure) after := by
  have taking (kept : after.refused = false) :
      Fails tries (sequence.drop Wire.CoordinateBlock.size) failure false := kept ▸ fails
  have unfaithful (kept : after.refused = false) : ¬ Echoes tries sequence :=
    fun faithful => (taking kept).not_faithful (behind_block.mp faithful).2
  constructor
  case sampled => exact ⟨nofun, fun faithful => absurd faithful.1 (unfaithful faithful.2.1)⟩
  case sample => exact nofun
  case differs =>
    intro count received differs kept
    rw [(taking kept).unique differs.fails]
  case short =>
    intro short kept
    rw [(taking kept).unique (short.fails enough)]
    exact Or.inr rfl
  case refused =>
    intro gone
    rw [gone] at fails
    obtain ⟨rfl, count, fewer, early⟩ := fails.broken
    exact ⟨rfl, count, fewer, behind_block.mpr ⟨enough, early⟩⟩
  case rejected => exact fun faithful kept => absurd faithful (unfaithful kept)
  case unchanged => exact fun _ _ => ⟨node.dice, same⟩

section Faithful

variable {middle : Line} {trials : List (Instant × Instant)}

/-- What trials that all went well show of the sequence. -/
theorem echoes_of_trying (enough : Wire.CoordinateBlock.size ≤ sequence.length)
    (state : Trying (sequence.drop Wire.CoordinateBlock.size) start trials node middle) :
    Echoes trials.length sequence := by
  refine behind_block.mpr ⟨enough, ?_⟩
  rw [state.body]
  exact List.prefix_append _ _

theorem Echoes.not_differs (faithful : Echoes tries sequence) {count : Nat} {received : UInt8} :
    ¬ Differs tries sequence count received := fun differs =>
  differs.fails.not_faithful (behind_block.mp faithful).2

theorem Echoes.not_short (faithful : Echoes tries sequence) : ¬ Short tries sequence := fun short =>
  have ⟨enough, early⟩ := behind_block.mp faithful
  (short.fails enough).not_faithful early

theorem judged_of_sample {sample : Vivaldi.Sample Binary64} (some : trials ≠ [])
    (enough : Wire.CoordinateBlock.size ≤ sequence.length)
    (block : Wire.CoordinateBlock.mk sample.remote sample.remoteError = told sequence)
    (best : sample.roundTrip = least trials)
    (state : Trying (sequence.drop Wire.CoordinateBlock.size) start trials node middle)
    (refused : after.refused = middle.refused) (moments : after.moments = middle.moments)
    (finite : update → (told sequence).coordinate.isFinite) :
    Judged trials.length sequence update node (.ok sample) after := by
  have faithful := echoes_of_trying enough state
  constructor
  case sampled =>
    exact ⟨fun _ => ⟨faithful, refused.trans state.refused, finite⟩, fun _ => ⟨sample, rfl⟩⟩
  case sample =>
    rintro _ ⟨⟩
    constructor
    · rw [block, told, Wire.CoordinateBlock.encode_decode (List.length_take_of_le enough)]
    · refine ⟨start, trials, moments.trans state.moments, rfl, ?_⟩
      rw [best]
      exact isLeast_least state.small some
  case differs => exact fun _ _ differs => absurd differs faithful.not_differs
  case short => exact fun short => absurd short faithful.not_short
  case refused =>
    intro gone
    rw [refused, state.refused] at gone
    cases gone
  case rejected => exact fun _ _ wanted infinite => absurd (finite wanted) infinite
  case unchanged => exact nofun

theorem judged_of_rejection (enough : Wire.CoordinateBlock.size ≤ sequence.length)
    (state : Trying (sequence.drop Wire.CoordinateBlock.size) start trials node middle)
    (refused : after.refused = middle.refused) (wanted : update)
    (infinite : ¬ (told sequence).coordinate.isFinite)
    (same : ∃ dice, after.node = { node with dice }) :
    Judged trials.length sequence update node
      (.error (Vivaldi.Rejection.failure .remoteNotFinite)) after := by
  have faithful := echoes_of_trying enough state
  constructor
  case sampled => exact ⟨nofun, fun sampled => absurd (sampled.2.2 wanted) infinite⟩
  case sample => exact nofun
  case differs => exact fun _ _ differs => absurd differs faithful.not_differs
  case short => exact fun short => absurd short faithful.not_short
  case refused =>
    intro gone
    rw [refused, state.refused] at gone
    cases gone
  case rejected => exact fun _ _ _ _ => rfl
  case unchanged => exact fun _ _ => same

end Faithful

theorem keeps_ping (node : Node) (sequence : Wire.Bytes) (address : SocketAddress)
    (update : Bool) :
    answered.Keeps (ping address update).run
      (Judged (echoRounds node.settings) sequence update node) (.opening node sequence) := by
  rw [ping, keeps_run_bind]
  refine (keeps_measure node sequence address).mono fun result middle measured => ?_
  cases result with
  | error failure =>
      obtain ⟨same, ⟨cut, rfl, refused⟩ | ⟨enough, fails⟩⟩ := measured
      · exact judged_of_cut cut refused same
      · exact judged_of_fails enough fails same
  | ok sample =>
      obtain ⟨enough, block, start, trials, all, best, state⟩ := measured
      have some : trials ≠ [] := by
        rw [← List.length_pos_iff, all, echoRounds]
        exact Nat.lt_of_lt_of_le Nat.zero_lt_one (Nat.le_max_left 1 _)
      rw [← all]
      simp only [keeps_run_bind, keeps_run_perform]
      refine keeps_report ?_
      cases update with
      | false => exact judged_of_sample some enough block best state rfl rfl nofun
      | true =>
          have finite_eq : sample.remote.isFinite = (told sequence).coordinate.isFinite := by
            rw [← block]
          rw [if_pos rfl, keeps_run_bind]
          refine keeps_observe ?_ (fun finite _ moved => ?_) fun infinite dice => ?_
          · obtain ⟨⟨trial, held, shortest⟩, -⟩ := isLeast_least state.small some
            rw [best, shortest]
            exact Vivaldi.isRoundTrip_millis
              (Nat.lt_of_le_of_lt (Nat.sub_le _ _) (state.small trial held))
          · exact judged_of_sample some enough block best state rfl rfl fun _ => finite_eq ▸ finite
          · refine judged_of_rejection enough state rfl rfl (finite_eq ▸ infinite) ⟨dice, ?_⟩
            rw [state.node]

/-- How the other end may go on. It takes what it is sent, or, if it closes, only as long as it has
something left to say. -/
def respond (closes : Bool) : (request : Request) → Line → request.Reply × Line
  | .moment, now => (⟨0, 0⟩, { now with moments := now.moments ++ [⟨0, 0⟩] })
  | .connect .., now => (.opened ⟨0⟩, now)
  | .read _ count _, now =>
    if count ≤ now.coming.length then
      (.bytes (now.coming.take count), { now with coming := now.coming.drop count })
    else (.ended, { now with coming := [] })
  | .write .., now =>
    if now.refused || closes && now.coming.isEmpty then (.broken, { now with refused := true })
    else (.written, now)
  | .pause .., now => (.elapsed, now)
  | .launch _, now => (⟨0⟩, now)
  | .finish _, now | .close _, now | .raise _, now | .join _, now | .report _, now => ((), now)

theorem answers_respond (closes : Bool) (request : Request) (now : Line) :
    answered.Answers request now (respond closes request now).1 (respond closes request now).2 := by
  cases request with
  | moment => exact ⟨Nat.two_pow_pos 64, rfl⟩
  | connect => exact ⟨⟨⟨0⟩, rfl⟩, rfl⟩
  | read stream count deadline =>
      change if _ then _ else _
      rw [respond]
      split
      · exact ⟨rfl, rfl⟩
      · exact ⟨rfl, rfl⟩
  | write =>
      rw [respond]
      split
      · exact Or.inr ⟨rfl, rfl⟩
      · next taking =>
          exact Or.inl ⟨rfl, (Bool.or_eq_false_iff.mp (Bool.eq_false_of_not_eq_true taking)).1, rfl⟩
  | _ => rfl

/-- A ping comes to its end, whatever sequence of bytes the other end sends. It gets a sample of a
faithful echo of all that it sends, and of nothing else. A byte that is another one and a sequence
that is too short have failures of their own, which leave the node as it was. So do an end that has
closed the connection, and a place that is to move the own one and is not finite. -/
theorem ping_judges {node : Node} {tries : Nat} (chosen : node.settings.pingTries.toNat = tries)
    (positive : 1 ≤ tries) (bounded : tries ≤ 256) (sequence : Wire.Bytes)
    (address : SocketAddress) (update : Bool) :
    (∃ result after,
      answered.Runs (ping address update).run (.opening node sequence) result after) ∧
      ∀ result after,
        answered.Runs (ping address update).run (.opening node sequence) result after →
          Judged tries sequence update node result after := by
  have rounds : echoRounds node.settings = tries := by
    rw [echoRounds]
    omega
  refine ⟨?_, fun result after run => ?_⟩
  · exact exists_runs (fun request now => ⟨_, _, answers_respond false request now⟩) _
  · rw [← rounds]
    exact (keeps_ping node sequence address update).ends run

end Ping

section Answers

open Echoing (counting)
open Inbound (place)

/-- A ping of an end that sends a sequence of bytes. -/
def pinged (closes : Bool) (sequence : Wire.Bytes) :
    Except Failure (Vivaldi.Sample Binary64) × Line :=
  answered.follow (respond closes) (ping (.ofNumber 1) true).run (.opening (counting 0 2) sequence)

theorem runs_pinged (closes : Bool) (sequence : Wire.Bytes) :
    answered.Runs (ping (.ofNumber 1) true).run (.opening (counting 0 2) sequence)
      (pinged closes sequence).1 (pinged closes sequence).2 :=
  runs_follow (answers_respond closes) _ _

/-- A block and the two bytes that such a ping sends. -/
def faithful : Wire.Bytes := place (counting 1 2) ++ numbers 2

theorem echoes_faithful : Echoes 2 faithful :=
  ⟨place (counting 1 2), Echoing.length_place _, List.prefix_rfl⟩

theorem ping_judges_faithful :
    (counting 0 2).settings.pingTries.toNat = 2 ∧ 1 ≤ 2 ∧ 2 ≤ 256 ∧
      Judged 2 faithful true (counting 0 2) (pinged false faithful).1 (pinged false faithful).2 ∧
      ∃ sample, (pinged false faithful).1 = .ok sample := by
  have chosen : (counting 0 2).settings.pingTries.toNat = 2 := rfl
  have judged := (ping_judges chosen (by decide) (by decide) faithful (.ofNumber 1) true).2 _ _
    (runs_pinged false faithful)
  refine ⟨chosen, by decide, by decide, judged, ?_⟩
  refine judged.sampled.mpr ⟨echoes_faithful, ?_, fun _ => ?_⟩
  · decide +kernel
  · decide +kernel

/-- An end that closes the connection when it has sent its bytes leaves no end of a stream to find,
and an end that echoes faithfully from no place at all has nothing that the node may move by. -/
theorem ping_not_only_echo :
    (¬ ∀ (node : Node) (tries : Nat) (sequence : Wire.Bytes) (address : SocketAddress)
        (update : Bool) (result : Except Failure (Vivaldi.Sample Binary64)) (after : Line),
      node.settings.pingTries.toNat = tries → 1 ≤ tries → tries ≤ 256 →
      answered.Runs (ping address update).run (.opening node sequence) result after →
      Short tries sequence → result = .error (.wire (.stream .endInBlock)) ∨
        result = .error (.wire (.stream .endInNumber))) ∧
    ¬ ∀ (node : Node) (tries : Nat) (sequence : Wire.Bytes) (address : SocketAddress)
        (update : Bool) (result : Except Failure (Vivaldi.Sample Binary64)) (after : Line),
      node.settings.pingTries.toNat = tries → 1 ≤ tries → tries ≤ 256 →
      answered.Runs (ping address update).run (.opening node sequence) result after →
      Echoes tries sequence → after.refused = false → ∃ sample, result = .ok sample := by
  constructor
  · intro always
    have short : Short 2 (place (counting 1 2) ++ numbers 1) :=
      Or.inr ⟨1, by decide, place (counting 1 2), Echoing.length_place _, rfl⟩
    have ends := always _ 2 _ _ _ _ _ rfl (by decide) (by decide) (runs_pinged true _) short
    have broken : (pinged true (place (counting 1 2) ++ numbers 1)).1 =
        .error (.wire (.stream .brokenPipe)) := by decide +kernel
    rw [broken] at ends
    rcases ends with ends | ends <;> cases ends
  · intro always
    let nowhere : Wire.CoordinateBlock := ⟨⟨.infinity, .zero, .zero⟩, .one⟩
    have echoes : Echoes 2 (nowhere.encode ++ numbers 2) :=
      ⟨nowhere.encode, Wire.CoordinateBlock.length_encode _, List.prefix_rfl⟩
    obtain ⟨sample, good⟩ := always _ 2 _ _ _ _ _ rfl (by decide) (by decide)
      (runs_pinged false (nowhere.encode ++ numbers 2)) echoes (by decide +kernel)
    have rejected : (pinged false (nowhere.encode ++ numbers 2)).1 =
        .error (Vivaldi.Rejection.failure .remoteNotFinite) := by decide +kernel
    rw [rejected] at good
    cases good

end Answers

end Overlay.Node.Trials
