import Overlay.Node.Gossip
import Overlay.Node.Ping
import Overlay.Proofs.Program.Run

/-!
Programs that never replace the state they work on.

Conversations over a stream are of this kind, from the connection to the last byte, so whatever
becomes of the state while one goes on is not its doing (`IsReadOnly.keeps`).
-/

set_option autoImplicit false

namespace Overlay

variable {σ S α β : Type}

namespace Program

/-- A program does not replace the state, whatever it is told. -/
def IsReadOnly : Program σ α → Prop
  | .done _ => True
  | .get next => ∀ state, IsReadOnly (next state)
  | .put _ _ => False
  | .ask _ next => ∀ reply, IsReadOnly (next reply)

theorem isReadOnly_request (request : Request) :
    (Program.request request : Program σ request.Reply).IsReadOnly := fun _ => trivial

theorem IsReadOnly.bind {program : Program σ α} {next : α → Program σ β}
    (first : program.IsReadOnly) (second : ∀ value, (next value).IsReadOnly) :
    (program >>= next).IsReadOnly := by
  change (program.bind next).IsReadOnly
  induction program with
  | done value => exact second value
  | get step ih => exact fun state => ih state (first state)
  | put state step ih => exact first.elim
  | ask request step ih => exact fun reply => ih reply (first reply)

theorem isReadOnly_forM {each : α → Program σ PUnit}
    (readOnly : ∀ item, (each item).IsReadOnly) (items : List α) :
    (items.forM each).IsReadOnly := by
  induction items with
  | nil => exact trivial
  | cons item items ih => exact (readOnly item).bind fun _ => ih

/-- While a program that leaves the state alone is at work, the world goes its own way. -/
theorem IsReadOnly.keeps {program : Program σ α} (readOnly : program.IsReadOnly)
    {world : Surroundings σ S} {Follows : S → S → Prop} (same : ∀ now, Follows now now)
    (onward : ∀ first second third, Follows first second → Follows second third →
      Follows first third)
    (admits : ∀ request now, world.Admits request now)
    (answers : ∀ request now reply after, world.Answers request now reply after →
      Follows now after) {post : α → S → Prop} {now : S}
    (holds : ∀ value after, Follows now after → post value after) :
    world.Keeps program post now := by
  induction program generalizing now with
  | done value => exact holds value now (same now)
  | get next ih => exact ih _ (readOnly _) holds
  | put state next ih => exact readOnly.elim
  | ask request next ih =>
      refine ⟨admits request now, fun reply middle answer => ih reply (readOnly reply) ?_⟩
      intro value after follows
      exact holds value after (onward _ _ _ (answers _ _ _ _ answer) follows)

end Program

/-- Surroundings that refuse no request, and keep up a relation while a program waits. -/
structure Surroundings.Steady (world : Surroundings σ S) (Follows : S → S → Prop) : Prop where
  refl : ∀ now, Follows now now
  trans : ∀ first second third, Follows first second → Follows second third → Follows first third
  admits : ∀ request now, world.Admits request now
  answers : ∀ request now reply after, world.Answers request now reply after → Follows now after

theorem Surroundings.Steady.keeps {world : Surroundings σ S} {Follows : S → S → Prop}
    (steady : world.Steady Follows) {program : Program σ α} (readOnly : program.IsReadOnly)
    {now : S} {post : α → S → Prop} (holds : ∀ value after, Follows now after → post value after) :
    world.Keeps program post now :=
  readOnly.keeps steady.refl steady.trans steady.admits steady.answers holds

namespace Attempt

open Program

theorem readOnly_pure (value : α) : (pure value : Attempt σ α).run.IsReadOnly := trivial

theorem readOnly_throw (failure : Failure) : (throw failure : Attempt σ α).run.IsReadOnly :=
  trivial

theorem readOnly_get : (get : Attempt σ σ).run.IsReadOnly := fun _ => trivial

theorem readOnly_bind {attempt : Attempt σ α} {next : α → Attempt σ β}
    (first : attempt.run.IsReadOnly) (second : ∀ value, (next value).run.IsReadOnly) :
    (attempt >>= next).run.IsReadOnly := by
  refine IsReadOnly.bind first fun result => ?_
  cases result with
  | ok value => exact second value
  | error failure => exact trivial

theorem readOnly_perform {program : Program σ α} (readOnly : program.IsReadOnly) :
    (perform program).run.IsReadOnly :=
  IsReadOnly.bind readOnly fun _ => trivial

theorem readOnly_limit (activity : Activity) (span : Duration) (outer : Option Limit) :
    (limit activity span outer : Attempt σ Limit).run.IsReadOnly :=
  readOnly_bind (readOnly_perform (isReadOnly_request _)) fun _ => readOnly_pure _

theorem readOnly_receive (stream : StreamId) (count : Nat) (fault : StreamFault) (limit : Limit) :
    (receive stream count fault limit : Attempt σ Wire.Bytes).run.IsReadOnly := by
  refine readOnly_bind (readOnly_perform (isReadOnly_request _)) fun reply => ?_
  cases reply with
  | bytes content => exact readOnly_pure content
  | ended => exact readOnly_throw _
  | expired => exact readOnly_throw _

theorem readOnly_receiveByte (stream : StreamId) (limit : Limit) :
    (receiveByte stream limit : Attempt σ UInt8).run.IsReadOnly :=
  readOnly_bind (readOnly_receive _ _ _ _) fun _ => readOnly_pure _

theorem readOnly_receiveFrame (layout : Wire.Layout α) (stream : StreamId) (maximum : Nat)
    (limit : Limit) :
    (receiveFrame layout stream maximum limit : Attempt σ α).run.IsReadOnly := by
  refine readOnly_bind (readOnly_receive _ _ _ _) fun header => ?_
  dsimp only
  split
  · exact readOnly_throw _
  · refine readOnly_bind (readOnly_receive _ _ _ _) fun body => ?_
    split
    · exact readOnly_pure _
    · exact readOnly_throw _

theorem readOnly_send (stream : StreamId) (bytes : Wire.Bytes) (limit : Limit) :
    (send stream bytes limit : Attempt σ Unit).run.IsReadOnly := by
  refine readOnly_bind (readOnly_perform (isReadOnly_request _)) fun reply => ?_
  cases reply with
  | written => exact readOnly_pure ()
  | broken => exact readOnly_throw _
  | expired => exact readOnly_throw _

theorem readOnly_sendFrame (layout : Wire.Layout α) (stream : StreamId) (value : α)
    (maximum : Nat) (limit : Limit) :
    (sendFrame layout stream value maximum limit : Attempt σ Unit).run.IsReadOnly := by
  rw [sendFrame]
  split
  · exact readOnly_send _ _ _
  · exact readOnly_throw _

theorem readOnly_closing {stream : StreamId} {attempt : Attempt σ α}
    (readOnly : attempt.run.IsReadOnly) : (closing stream attempt).run.IsReadOnly :=
  IsReadOnly.bind readOnly fun _ => IsReadOnly.bind (isReadOnly_request _) fun _ => trivial

theorem readOnly_connected {address : SocketAddress} {tag : Wire.ServiceTag}
    {patience : Duration} {limit : Limit} {attempt : StreamId → Attempt σ α}
    (readOnly : ∀ stream, (attempt stream).run.IsReadOnly) :
    (connected address tag patience limit attempt).run.IsReadOnly := by
  refine readOnly_bind (readOnly_perform (isReadOnly_request _)) fun reply => ?_
  cases reply with
  | opened stream => exact readOnly_closing (readOnly stream)
  | failed fault => exact readOnly_throw _
  | expired => exact readOnly_throw _

theorem readOnly_reporting {event : Failure → Event} {attempt : Attempt σ α}
    (readOnly : attempt.run.IsReadOnly) : (reporting event attempt).run.IsReadOnly := by
  refine IsReadOnly.bind readOnly fun result => ?_
  cases result with
  | ok value => exact trivial
  | error failure => exact IsReadOnly.bind (isReadOnly_request _) fun _ => trivial

end Attempt

namespace Node

open Attempt Program

theorem readOnly_requestRecord (address : SocketAddress) (patience : Duration) (maximum : Nat) :
    (requestRecord address patience maximum).run.IsReadOnly :=
  readOnly_bind (readOnly_limit _ _ _) fun _ => readOnly_connected fun _ =>
    readOnly_bind (readOnly_send _ _ _) fun _ => readOnly_receiveFrame _ _ _ _

theorem readOnly_talk (target : PeerRecord) (request : Message) (patience : Duration)
    (maximum : Nat) : (talk target request patience maximum).run.IsReadOnly :=
  readOnly_bind (readOnly_limit _ _ _) fun _ => readOnly_connected fun _ =>
    readOnly_bind (readOnly_sendFrame _ _ _ _ _) fun _ => readOnly_receiveFrame _ _ _ _

theorem readOnly_echo (stream : StreamId) (limit : Limit) (rounds : Nat) (next : UInt8)
    (best : Binary64) : (echo stream limit rounds next best).run.IsReadOnly := by
  induction rounds generalizing next best with
  | zero => exact readOnly_pure best
  | succ rounds ih =>
      refine readOnly_bind (readOnly_perform (isReadOnly_request _)) fun before => ?_
      refine readOnly_bind (readOnly_send _ _ _) fun _ => ?_
      refine readOnly_bind (readOnly_receiveByte _ _) fun received => ?_
      split
      · exact readOnly_throw _
      · exact readOnly_bind (readOnly_perform (isReadOnly_request _)) fun after => ih _ _

theorem readOnly_measure (address : SocketAddress) : (measure address).run.IsReadOnly := by
  refine readOnly_bind readOnly_get fun node => ?_
  refine readOnly_bind (readOnly_limit _ _ _) fun limit => readOnly_connected fun stream => ?_
  refine readOnly_bind (readOnly_receive _ _ _ _) fun bytes => ?_
  exact readOnly_bind (readOnly_echo _ _ _ _ _) fun roundTrip => readOnly_pure _

/-- A ping that is not to move the own coordinate. -/
theorem readOnly_ping (address : SocketAddress) : (ping address false).run.IsReadOnly := by
  refine readOnly_bind (readOnly_measure address) fun sample => ?_
  exact readOnly_bind (readOnly_perform (isReadOnly_request _)) fun _ => readOnly_pure sample

theorem readOnly_echoBack (stream : StreamId) (limit : Limit) (rounds : Nat) :
    (echoBack stream limit rounds).run.IsReadOnly := by
  induction rounds with
  | zero => exact readOnly_pure ()
  | succ rounds ih =>
      refine readOnly_bind (readOnly_perform (isReadOnly_request _)) fun reply => ?_
      cases reply with
      | bytes content => exact readOnly_bind (readOnly_send _ _ _) fun _ => ih
      | ended => exact readOnly_pure ()
      | expired => exact readOnly_throw _

theorem readOnly_serveEcho (stream : StreamId) (outer : Option Limit) :
    (serveEcho stream outer).run.IsReadOnly := by
  refine readOnly_bind readOnly_get fun node => readOnly_bind (readOnly_limit _ _ _) fun limit => ?_
  exact readOnly_bind (readOnly_send _ _ _) fun _ => readOnly_echoBack _ _ _

theorem readOnly_serveRecord (stream : StreamId) (outer : Option Limit) :
    (serveRecord stream outer).run.IsReadOnly := by
  refine readOnly_bind readOnly_get fun node => readOnly_bind (readOnly_limit _ _ _) fun limit => ?_
  refine readOnly_bind (readOnly_receiveByte _ _) fun byte => ?_
  split
  · exact readOnly_bind (readOnly_perform (isReadOnly_request _)) fun _ => readOnly_throw _
  · exact readOnly_bind readOnly_get fun node => readOnly_sendFrame _ _ _ _ _

end Node

end Overlay
