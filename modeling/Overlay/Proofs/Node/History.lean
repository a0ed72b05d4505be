import Overlay.Node.Gossip
import Overlay.Proofs.Engine.Tally

/-!
What an engine has dealt with, and the tally that counts it.

A round enters the history when it ends, and what it has counted before is pending until then. Its
reply is merged at its end, so that the history lists the payloads in the order in which they were
merged.
-/

set_option autoImplicit false

namespace Overlay.Node.History

/-- What an engine has dealt with. -/
inductive Dealt
  /-- A round: how it ended, how many peers it called, and the bytes that it read last. -/
  | round (outcome : Except Failure Round) (called : Nat) (heard : Wire.Bytes)
  /-- A request, and what came of it. -/
  | request (request : Message) (outcome : Except Failure Message)

namespace Dealt

def isExchanged : Dealt → Bool
  | .round (.ok (.exchanged ..)) .. => true
  | _ => false

def isFailed : Dealt → Bool
  | .round (.error _) .. => true
  | _ => false

/-- A round that turned to a peer at all. -/
def isTried : Dealt → Bool
  | .round (.ok .skipped) .. => false
  | .round .. => true
  | .request .. => false

/-- A round in which a second peer was called. -/
def isRetried : Dealt → Bool
  | .round _ called _ => decide (1 < called)
  | .request .. => false

/-- A round whose reply came from the second peer. -/
def isViaFallback : Dealt → Bool
  | .round (.ok (.exchanged _ _ viaFallback)) .. => viaFallback
  | _ => false

/-- A request that was not refused. -/
def isServed : Dealt → Bool
  | .request _ (.ok _) => true
  | _ => false

/-- The peers of the payload that was merged, if one was: that of a request which was not refused,
and that of the reply, which a round reads last. -/
def payload? : Dealt → Option (List PeerId)
  | .round (.ok (.exchanged ..)) _ heard =>
    (Wire.decodeBody Wire.Layout.message heard).toOption.map (·.entries.map Entry.id)
  | .request asked (.ok _) => some (asked.entries.map Entry.id)
  | _ => none

end Dealt

/-- The payloads that were merged, oldest first. -/
def payloads (dealt : List Dealt) : List (List PeerId) := dealt.filterMap Dealt.payload?

/-- What a round has counted already, before it is part of the history. -/
structure Pending where
  retries : Nat
  failures : Nat

/-- Between two rounds nothing is pending. -/
def Pending.none : Pending := ⟨0, 0⟩

/-- A tally counts what is in the history and what is pending. -/
structure Counted (pending : Pending) (dealt : List Dealt) (tally : Tally) : Prop where
  exchanges : tally.exchanges = dealt.countP Dealt.isExchanged
  failures : tally.failures = dealt.countP Dealt.isFailed + pending.failures
  retries : tally.fallbackRetries = dealt.countP Dealt.isRetried + pending.retries
  served : tally.requestsServed = dealt.countP Dealt.isServed
  observed : tally.observed = (payloads dealt).rtake Tally.observedLimit
  /-- Nobody is reached by a second attempt that was not made. -/
  second : ∀ entry ∈ dealt, entry.isViaFallback → entry.isRetried

section Counting

variable {pending : Pending} {dealt : List Dealt} {tally : Tally}

theorem countP_concat (property : Dealt → Bool) (dealt : List Dealt) (last : Dealt) :
    (dealt ++ [last]).countP property = dealt.countP property + (property last).toNat := by
  rw [List.countP_append, List.countP_singleton]
  cases property last with
  | true => rfl
  | false => rfl

theorem payloads_concat (dealt : List Dealt) (last : Dealt) :
    payloads (dealt ++ [last]) = payloads dealt ++ last.payload?.toList := by
  simp only [payloads, List.filterMap_append]
  cases told : last.payload? with
  | none => simp [told]
  | some payload => simp [told]

theorem counted_zero : Counted .none [] .zero where
  exchanges := rfl
  failures := rfl
  retries := rfl
  served := rfl
  observed := by
    rw [payloads, List.filterMap_nil, List.rtake_nil]
    rfl
  second _ member := absurd member List.not_mem_nil

/-- One more entry of the history, which is counted from now on. -/
theorem Counted.concat {after : Tally} {left : Pending} {last : Dealt}
    (counted : Counted pending dealt tally)
    (exchanges : after.exchanges = tally.exchanges + last.isExchanged.toNat)
    (failures : after.failures + pending.failures =
      tally.failures + last.isFailed.toNat + left.failures)
    (retries : after.fallbackRetries + pending.retries =
      tally.fallbackRetries + last.isRetried.toNat + left.retries)
    (served : after.requestsServed = tally.requestsServed + last.isServed.toNat)
    (observed : after.observed = (payloads (dealt ++ [last])).rtake Tally.observedLimit)
    (second : last.isViaFallback → last.isRetried) : Counted left (dealt ++ [last]) after where
  exchanges := by
    rw [countP_concat, exchanges, counted.exchanges]
  failures := by
    have before := counted.failures
    rw [countP_concat]
    omega
  retries := by
    have before := counted.retries
    rw [countP_concat]
    omega
  served := by
    rw [countP_concat, served, counted.served]
  observed := observed
  second := by
    intro entry member
    rcases List.mem_append.mp member with early | late
    · exact counted.second entry early
    · rw [List.mem_singleton.mp late]
      exact second

/-- An entry without a payload leaves the window alone. -/
theorem Counted.observed_concat {last : Dealt} (counted : Counted pending dealt tally)
    (silent : last.payload? = none) :
    tally.observed = (payloads (dealt ++ [last])).rtake Tally.observedLimit := by
  rw [payloads_concat, silent, Option.toList_none, List.append_nil]
  exact counted.observed

theorem Counted.observed_payload {last : Dealt} {entries : List Entry}
    (counted : Counted pending dealt tally)
    (told : last.payload? = some (entries.map Entry.id)) :
    (tally.observe entries).observed =
      (payloads (dealt ++ [last])).rtake Tally.observedLimit := by
  rw [payloads_concat, told, Option.toList_some]
  exact Tally.observed_observe counted.observed entries

theorem Counted.refused {request : Message} {failure : Failure}
    (counted : Counted pending dealt tally) :
    Counted pending (dealt ++ [.request request (.error failure)]) tally :=
  counted.concat rfl rfl rfl rfl (counted.observed_concat rfl) nofun

theorem Counted.answered {request reply : Message} (counted : Counted pending dealt tally) :
    Counted pending (dealt ++ [.request request (.ok reply)])
      { tally.observe request.entries with requestsServed := tally.requestsServed + 1 } :=
  counted.concat rfl rfl rfl rfl (counted.observed_payload rfl) nofun

theorem Counted.skipped {heard : Wire.Bytes} (counted : Counted .none dealt tally) :
    Counted .none (dealt ++ [.round (.ok .skipped) 0 heard]) tally :=
  counted.concat rfl rfl rfl rfl (counted.observed_concat rfl) nofun

theorem Counted.failed {failure : Failure} {heard : Wire.Bytes} {again : Bool}
    (counted : Counted ⟨again.toNat, 1⟩ dealt tally) :
    Counted .none (dealt ++ [.round (.error failure) (again.toNat + 1) heard]) tally := by
  refine counted.concat rfl rfl ?_ rfl (counted.observed_concat rfl) nofun
  cases again with
  | true => rfl
  | false => rfl

theorem Counted.exchanged {peer : PeerId} {received : Nat} {heard : Wire.Bytes} {reply : Message}
    {again : Bool} (counted : Counted ⟨again.toNat, 0⟩ dealt tally)
    (decoded : Wire.decodeBody Wire.Layout.message heard = .ok reply) :
    Counted .none
      (dealt ++ [.round (.ok (.exchanged peer received again)) (again.toNat + 1) heard])
      { tally.observe reply.entries with exchanges := tally.exchanges + 1 } := by
  have told : (Dealt.round (.ok (.exchanged peer received again)) (again.toNat + 1)
      heard).payload? = some (reply.entries.map Entry.id) := by
    rw [Dealt.payload?, decoded]
    rfl
  cases again with
  | true => exact counted.concat rfl rfl rfl rfl (counted.observed_payload told) fun _ => rfl
  | false => exact counted.concat rfl rfl rfl rfl (counted.observed_payload told) nofun

theorem Counted.retried (counted : Counted .none dealt tally) :
    Counted ⟨1, 0⟩ dealt { tally with fallbackRetries := tally.fallbackRetries + 1 } :=
  { counted with retries := congrArg (· + 1) counted.retries }

theorem Counted.lost {retries : Nat} (counted : Counted ⟨retries, 0⟩ dealt tally) :
    Counted ⟨retries, 1⟩ dealt { tally with failures := tally.failures + 1 } :=
  { counted with failures := congrArg (· + 1) counted.failures }

/-- Each round that turned to a peer either exchanged or failed. -/
theorem exchanged_add_failed (dealt : List Dealt) :
    dealt.countP Dealt.isExchanged + dealt.countP Dealt.isFailed = dealt.countP Dealt.isTried := by
  induction dealt with
  | nil => rfl
  | cons entry rest ih =>
      have one : (if entry.isExchanged then 1 else 0) + (if entry.isFailed then 1 else 0) =
          if entry.isTried then 1 else 0 := by
        match entry with
        | .round (.ok .skipped) _ _ => rfl
        | .round (.ok (.exchanged ..)) _ _ => rfl
        | .round (.error _) _ _ => rfl
        | .request .. => rfl
      simp only [List.countP_cons]
      omega

end Counting

end Overlay.Node.History
