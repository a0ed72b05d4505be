import Overlay.Proofs.Swarm.Basic

/-!
Runs of a swarm that are played move by move.

A job always comes to a point where it waits or is done (`settles_settled`), so a schedule of moves
can be played on a swarm; where every move is possible, what comes out is a run (`run_play`).
-/

set_option autoImplicit false

namespace Overlay.Swarm

variable {size : Nat} {timing : Timing} {swarm next : Swarm size} {α : Type}

/-- The answer to a request that need not wait. -/
def instantly : (request : Request) → request.Reply
  | .moment => ⟨0, 0⟩
  | .connect .. => .expired
  | .read .. => .expired
  | .write .. => .written
  | .pause .. => .elapsed
  | .launch _ => ⟨0⟩
  | .finish _ | .close _ | .raise _ | .join _ | .report _ => ()

/-- Where a program settles. -/
def settled : Program Node α → View → Program Node α × View
  | .done value, now => (.done value, now)
  | .get next, now => settled (next now.node) now
  | .put state next, now => settled next (now.leave state)
  | .ask request next, now =>
    if waits request then (.ask request next, now.issue request)
    else settled (next (instantly request)) now

theorem settles_settled (program : Program Node α) (now : View) :
    Settles program now (settled program now).1 (settled program now).2 := by
  induction program generalizing now with
  | done value => exact .done value now
  | get next ih => exact .get (ih _ now)
  | put state next ih => exact .put (ih _)
  | ask request next ih =>
      by_cases waiting : waits request
      · simp only [settled, if_pos waiting]
        exact .wait request next now waiting
      · simp only [settled, if_neg waiting]
        exact .ask (instantly request) waiting (ih _ now)

/-- The choice of what happens next. -/
inductive Move (size : Nat)
  | start (host : Fin size) (job : Job) (place : Nat)
  | turn (place : Nat)
  /-- A job gets all that it waits for. -/
  | reply (place : Nat)
  | connection (place : Nat) (caller callee : StreamId) (host : Fin size) (server : Nat)
  | pass (time : Timestamp)
  | cleanup (host : Fin size) (algorithm : Algorithm)

instance (now : View) (link peer : Link) : Decidable (InTime timing now link peer) :=
  match timing with
  | .free => .isTrue trivial
  | .shared lifetime => inferInstanceAs (Decidable
      (link.tag = .nodeInfo → now.isSeeding → now.node.clock < peer.stamp.plus lifetime))

/-- What a job gets when it gets all that it waits for, unless that is a connection. -/
def arrival (timing : Timing) (swarm : Swarm size) (now : View) :
    (request : Request) → Option (request.Reply × View)
  | .read stream count _ => do
    let link ← now.link
    let peer ← swarm.links link.peer
    let got := (peer.sent.drop link.got.length).take count
    if link.name = stream ∧ link.got ++ got <+: peer.sent ∧ got.length = count ∧
        InTime timing now link peer then
      some (.bytes got, { now with link := some { link with got := link.got ++ got } })
    else none
  | .write .. => some (.written, now)
  | .pause .. => some (.elapsed, now)
  | .join _ => some ((), now)
  | _ => none

theorem answers_arrival {now after : View} {request : Request} {reply : request.Reply}
    (arrives : swarm.arrival timing now request = some (reply, after)) :
    swarm.Answers timing now request reply after := by
  cases request with
  | read stream count deadline =>
      simp only [arrival, Option.bind_eq_bind, Option.bind_eq_some_iff] at arrives
      obtain ⟨link, held, peer, there, arrives⟩ := arrives
      split at arrives
      · next holds =>
          cases arrives
          obtain ⟨named, front, length, inTime⟩ := holds
          refine ⟨link, peer, _, held, named, there, front, ?_, rfl⟩
          rintro content ⟨⟩
          exact ⟨rfl, length, inTime⟩
      · cases arrives
  | write | pause | join =>
      cases arrives
      rfl
  | _ => cases arrives

/-- The swarm after a job went on for as long as it could. -/
def resume (swarm : Swarm size) (place : Nat) (task : Task size)
    (program : Program Node (Option Job)) (now : View) : Swarm size :=
  swarm.settle place task (settled program now).1 (settled program now).2

/-- The swarm after a move, if it can be made. -/
def move? (timing : Timing) (swarm : Swarm size) : Move size → Option (Swarm size)
  | .start host job place =>
    if isOwn job ∧ (swarm.tasks place).isNone then
      some { swarm with
        tasks := Function.update swarm.tasks place (some ⟨host, none, seeds job, .ready job⟩) }
    else none
  | .turn place => do
    let task ← swarm.tasks place
    match task.stage with
    | .ready job => some (swarm.resume place task (Node.turn job) (swarm.view task))
    | _ => none
  | .reply place => do
    let task ← swarm.tasks place
    match task.stage with
    | .standing request next => do
      let (reply, now) ← swarm.arrival timing (swarm.view task) request
      some (swarm.resume place task (next reply) now)
    | _ => none
  | .connection place caller callee host server => do
    let task ← swarm.tasks place
    match task.stage with
    | .standing (.connect _ tag _ _) next =>
      if (swarm.links caller).isNone ∧ (swarm.links callee).isNone ∧ caller ≠ callee ∧
          (swarm.tasks server).isNone then
        let connected := swarm.connect place task tag caller callee host server
        let calling := { task with held := some caller }
        some (connected.resume place calling (next (.opened caller)) (connected.view calling))
      else none
    | _ => none
  | .pass time =>
    if ∀ host, (swarm.nodes host).clock ≤ time then
      some { swarm with nodes := fun host => { swarm.nodes host with clock := time } }
    else none
  | .cleanup host algorithm =>
    let node := swarm.nodes host
    let engine := node.engine algorithm
    let (cache, dice) := engine.cache.cleanup node.clock node.dice
    some { swarm with
      nodes := Function.update swarm.nodes host
        ({ node with dice }.withEngine { engine with cache }) }

theorem step_move {move : Move size} (made : swarm.move? timing move = some next) :
    Step timing swarm next := by
  cases move with
  | start host job place =>
      simp only [move?] at made
      split at made
      · next possible =>
          cases made
          exact .start swarm host job place possible.1 (Option.isNone_iff_eq_none.mp possible.2)
      · cases made
  | turn place =>
      simp only [move?, Option.bind_eq_bind, Option.bind_eq_some_iff] at made
      obtain ⟨task, found, made⟩ := made
      split at made
      · next job ready =>
          cases made
          exact .turn swarm place task job _ _ found ready (settles_settled _ _)
      · cases made
  | reply place =>
      simp only [move?, Option.bind_eq_bind, Option.bind_eq_some_iff] at made
      obtain ⟨task, found, made⟩ := made
      split at made
      · next request rest standing =>
          obtain ⟨⟨reply, now⟩, arrives, made⟩ := Option.bind_eq_some_iff.mp made
          cases made
          exact .reply swarm place task request rest reply _ now _ found standing
            (answers_arrival arrives) (settles_settled _ _)
      · cases made
  | connection place caller callee host server =>
      simp only [move?, Option.bind_eq_bind, Option.bind_eq_some_iff] at made
      obtain ⟨task, found, made⟩ := made
      split at made
      · next address tag patience deadline rest standing =>
          split at made
          · next possible =>
              cases made
              simp only [Option.isNone_iff_eq_none] at possible
              obtain ⟨freeCaller, freeCallee, apart, freeServer⟩ := possible
              exact .connection swarm place task address tag patience deadline rest caller callee
                host server _ _ found standing freeCaller freeCallee apart freeServer
                (settles_settled _ _)
          · cases made
      · cases made
  | pass time =>
      simp only [move?] at made
      split at made
      · next later =>
          cases made
          exact .pass swarm time later
      · cases made
  | cleanup host algorithm =>
      cases made
      exact .cleanup swarm host algorithm

/-- The swarm after a schedule of moves, if all of them can be made. -/
def play (timing : Timing) (swarm : Swarm size) : List (Move size) → Option (Swarm size)
  | [] => some swarm
  | first :: rest => do (← swarm.move? timing first).play timing rest

theorem run_play {schedule : List (Move size)} (played : swarm.play timing schedule = some next) :
    Run timing swarm next := by
  induction schedule generalizing swarm with
  | nil =>
      cases played
      exact .refl
  | cons first rest ih =>
      obtain ⟨middle, made, played⟩ := Option.bind_eq_some_iff.mp played
      exact .head (step_move made) (ih played)

section Pair

/-- The record of one of two nodes. -/
def pairRecord (host : Fin 2) : PeerRecord :=
  .fresh (.ofNat host) (.ofNumber host) "pair"

/-- Two nodes, of which each may ask the second one for its record. -/
def pair : Swarm 2 where
  nodes host := Node.start .brisk (pairRecord host) ⟨0⟩ (.ofOffers (fun _ _ => 0) fun _ => .zero)
    (.addresses [(pairRecord 1).address]) none
  chronicle :=
    { advertised := fun id => [pairRecord 0, pairRecord 1].filter (·.id = id)
      spoken := fun _ => none }
  links _ := none
  tasks _ := none

/-- The first node asks the second one for its record, takes it in, and gossips with it. -/
def acquaint : List (Move 2) :=
  [.start 0 (.gossip .cyclon 0) 0, .turn 0, .reply 0,
    -- The question for the record, and the answer to it.
    .connection 0 ⟨0⟩ ⟨1⟩ 1 1, .turn 1, .reply 1, .reply 0, .reply 0, .reply 0,
    -- The request, and the reply to it.
    .connection 0 ⟨2⟩ ⟨3⟩ 1 2, .turn 2, .reply 2, .reply 2, .reply 0, .reply 0, .reply 0]

theorem begins_pair (timing : Timing)
    (lifetime : ∀ lifetime, timing = .shared lifetime → lifetime = Settings.brisk.entryLifetime) :
    Begins timing pair where
  nodes host := ⟨.brisk, pairRecord host, ⟨0⟩, _, _, Or.inr ⟨_, rfl⟩, rfl⟩
  distinct := by decide +kernel
  advertised := by decide +kernel
  strangers id stranger := by
    have first := stranger 0
    have second := stranger 1
    change (pairRecord 0).id ≠ id at first
    change (pairRecord 1).id ≠ id at second
    simp [pair, first, second]
  silent _ := rfl
  links _ := rfl
  tasks _ := rfl
  timing span shared := ⟨⟨0⟩, fun _ => ⟨rfl, (lifetime span shared).symm⟩⟩

end Pair

end Overlay.Swarm
