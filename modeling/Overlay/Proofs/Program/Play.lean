import Overlay.Proofs.Program.Run

/-!
Runs of a program against answers that are known beforehand, so that they can be computed.
-/

set_option autoImplicit false

namespace Overlay

/-- The peer of a number, at the address of that number. -/
def PeerRecord.numbered (number : Nat) : PeerRecord :=
  .fresh (.ofNat number) (.ofNumber number) "cluster"

namespace Surroundings

variable {σ S α : Type}

/-- Where a program ends in a world that gives the same answer to the same request each time, and
does not change. -/
def play (world : Surroundings σ S) (answer : (request : Request) → request.Reply) :
    Program σ α → S → α × S
  | .done value, now => (value, now)
  | .get next, now => world.play answer (next (world.look now)) now
  | .put state next, now => world.play answer next (world.leave now state)
  | .ask request next, now => world.play answer (next (answer request)) now

theorem runs_play {world : Surroundings σ S} {answer : (request : Request) → request.Reply}
    (answered : ∀ request now, world.Answers request now (answer request) now)
    (program : Program σ α) (now : S) :
    world.Runs program now (world.play answer program now).1
      (world.play answer program now).2 := by
  induction program generalizing now with
  | done value => exact .done value now
  | get next ih => exact .get (ih _ now)
  | put state next ih => exact .put (ih _)
  | ask request next ih => exact .ask (answered request now) (ih _ now)

/-- Where a program ends in a world that answers by a rule, and changes by it. -/
def follow (world : Surroundings σ S) (answer : (request : Request) → S → request.Reply × S) :
    Program σ α → S → α × S
  | .done value, now => (value, now)
  | .get next, now => world.follow answer (next (world.look now)) now
  | .put state next, now => world.follow answer next (world.leave now state)
  | .ask request next, now =>
    world.follow answer (next (answer request now).1) (answer request now).2

theorem runs_follow {world : Surroundings σ S}
    {answer : (request : Request) → S → request.Reply × S}
    (answered : ∀ request now,
      world.Answers request now (answer request now).1 (answer request now).2)
    (program : Program σ α) (now : S) :
    world.Runs program now (world.follow answer program now).1
      (world.follow answer program now).2 := by
  induction program generalizing now with
  | done value => exact .done value now
  | get next ih => exact .get (ih _ now)
  | put state next ih => exact .put (ih _)
  | ask request next ih => exact .ask (answered request now) (ih _ _)

/-- Every connection ends in the same way, and what is read depends on how much is wanted. Nothing
else goes wrong. -/
def answering (connecting : Connecting) (reading : Nat → Reading) :
    (request : Request) → request.Reply
  | .moment => ⟨0, 0⟩
  | .connect .. => connecting
  | .read _ count _ => reading count
  | .write .. => .written
  | .pause .. => .elapsed
  | .launch _ => ⟨0⟩
  | .finish _ | .close _ | .raise _ | .join _ | .report _ => ()

end Surroundings

end Overlay
