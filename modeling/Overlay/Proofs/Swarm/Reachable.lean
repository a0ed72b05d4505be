import Overlay.Proofs.Swarm.Invariant

/-!
The steps and the runs of a swarm.

What holds of a swarm when it begins outlives every step (`Sound.step`), and so every run
(`Sound.run`).
-/

set_option autoImplicit false

namespace Overlay.Swarm

open Chance Node PeerCache

variable {size : Nat} {timing : Timing} {start : Chronicle} {swarm next : Swarm size}

section Connecting

variable {place server : Nat} {task : Task size} {tag : Wire.ServiceTag}
  {caller callee : StreamId} {host : Fin size}

/-- The ends of streams once there is a new one. -/
theorem connect_links {name : StreamId} {link : Link}
    (known : (swarm.connect place task tag caller callee host server).links name = some link) :
    (name = callee ∧ link = ⟨callee, caller, tag, true, (swarm.nodes task.host).clock, [],
      (swarm.nodes task.host).clock, []⟩) ∨
    (name = caller ∧ link = ⟨caller, callee, tag, false, (swarm.nodes task.host).clock, [],
      (swarm.nodes task.host).clock, []⟩) ∨
    (name ≠ callee ∧ name ≠ caller ∧ swarm.links name = some link) := by
  simp only [connect] at known
  by_cases called : name = callee
  · subst called
    rw [Function.update_self] at known
    cases known
    exact Or.inl ⟨rfl, rfl⟩
  · rw [Function.update_of_ne called] at known
    by_cases calling : name = caller
    · subst calling
      rw [Function.update_self] at known
      cases known
      exact Or.inr (Or.inl ⟨rfl, rfl⟩)
    · rw [Function.update_of_ne calling] at known
      exact Or.inr (Or.inr ⟨called, calling, known⟩)

/-- The jobs once there is one more. -/
theorem connect_tasks {spot : Nat} {other : Task size}
    (there : (swarm.connect place task tag caller callee host server).tasks spot = some other) :
    (spot = server ∧ other = ⟨host, some callee, false, .ready (.serve tag callee)⟩) ∨
    (spot = place ∧ other = { task with held := some caller }) ∨
    (spot ≠ server ∧ spot ≠ place ∧ swarm.tasks spot = some other) := by
  simp only [connect] at there
  by_cases serving : spot = server
  · subst serving
    rw [Function.update_self] at there
    cases there
    exact Or.inl ⟨rfl, rfl⟩
  · rw [Function.update_of_ne serving] at there
    by_cases own : spot = place
    · subst own
      rw [Function.update_self] at there
      cases there
      exact Or.inr (Or.inl ⟨rfl, rfl⟩)
    · rw [Function.update_of_ne own] at there
      exact Or.inr (Or.inr ⟨serving, own, there⟩)

/-- A new stream with a new job at its other end. -/
structure Fresh (swarm : Swarm size) (place : Nat) (task : Task size) (caller callee : StreamId)
    (server : Nat) : Prop where
  found : swarm.tasks place = some task
  freeCaller : swarm.links caller = none
  freeCallee : swarm.links callee = none
  apart : caller ≠ callee
  freeServer : swarm.tasks server = none

theorem Fresh.links_caller (fresh : Fresh swarm place task caller callee server) :
    (swarm.connect place task tag caller callee host server).links caller =
      some ⟨caller, callee, tag, false, (swarm.nodes task.host).clock, [],
        (swarm.nodes task.host).clock, []⟩ := by
  simp only [connect, Function.update_of_ne fresh.apart, Function.update_self]

theorem links_callee :
    (swarm.connect place task tag caller callee host server).links callee =
      some ⟨callee, caller, tag, true, (swarm.nodes task.host).clock, [],
        (swarm.nodes task.host).clock, []⟩ := by
  simp only [connect, Function.update_self]

/-- Streams that there were before are what they were. -/
theorem Fresh.links_old (fresh : Fresh swarm place task caller callee server) {name : StreamId}
    {link : Link} (known : swarm.links name = some link) :
    (swarm.connect place task tag caller callee host server).links name = some link := by
  have called : name ≠ callee := by
    rintro rfl
    cases fresh.freeCallee.symm.trans known
  have calling : name ≠ caller := by
    rintro rfl
    cases fresh.freeCaller.symm.trans known
  simp only [connect, Function.update_of_ne called, Function.update_of_ne calling, known]

theorem Fresh.tasks_place (fresh : Fresh swarm place task caller callee server) :
    (swarm.connect place task tag caller callee host server).tasks place =
      some { task with held := some caller } := by
  have apart : place ≠ server := by
    rintro rfl
    cases fresh.freeServer.symm.trans fresh.found
  simp only [connect, Function.update_of_ne apart, Function.update_self]

/-- The new ends are held by nobody else. -/
theorem Orderly.held_old (orderly : Orderly timing start swarm)
    (fresh : Fresh swarm place task caller callee server) {spot : Nat} {other : Task size}
    {name : StreamId} (there : swarm.tasks spot = some other) (holds : other.held = some name) :
    name ≠ caller ∧ name ≠ callee := by
  obtain ⟨link, known⟩ := orderly.held spot other name there holds
  constructor
  · rintro rfl
    cases fresh.freeCaller.symm.trans known
  · rintro rfl
    cases fresh.freeCallee.symm.trans known

/-- Every end has another end, and was not opened later than now. -/
theorem Orderly.connect_end (orderly : Orderly timing start swarm)
    (fresh : Fresh swarm place task caller callee server) {name : StreamId} {link : Link}
    (known : (swarm.connect place task tag caller callee host server).links name = some link) :
    EndSound timing (swarm.connect place task tag caller callee host server) name link := by
  have opened (lifetime : UInt64) (shared : timing = .shared lifetime) (other : Fin size) :
      (swarm.nodes task.host).clock ≤ (swarm.nodes other).clock := by
    rw [orderly.clocks lifetime shared task.host other]
    exact Timestamp.le_refl _
  rcases connect_links known with ⟨rfl, rfl⟩ | ⟨rfl, rfl⟩ | ⟨_, _, old⟩
  · exact ⟨rfl, Or.inl rfl, opened, _, fresh.links_caller, rfl, rfl, rfl⟩
  · exact ⟨rfl, Or.inl rfl, opened, _, links_callee, rfl, rfl, rfl⟩
  · have before := orderly.links name link old
    obtain ⟨peer, there, faces⟩ := before.peer
    exact ⟨before.name, before.carries, before.opened, peer, fresh.links_old there, faces⟩

theorem Orderly.connect_held (orderly : Orderly timing start swarm)
    (fresh : Fresh swarm place task caller callee server) {spot : Nat} {other : Task size}
    {name : StreamId}
    (there : (swarm.connect place task tag caller callee host server).tasks spot = some other)
    (holds : other.held = some name) :
    ∃ link, (swarm.connect place task tag caller callee host server).links name = some link := by
  rcases connect_tasks there with ⟨rfl, rfl⟩ | ⟨rfl, rfl⟩ | ⟨_, _, old⟩
  · cases holds
    exact ⟨_, links_callee⟩
  · cases holds
    exact ⟨_, fresh.links_caller⟩
  · obtain ⟨link, known⟩ := orderly.held spot other name old holds
    exact ⟨link, fresh.links_old known⟩

/-- The one job holds the one new end, the other job the other one. -/
theorem Orderly.connect_alone (orderly : Orderly timing start swarm)
    (fresh : Fresh swarm place task caller callee server) {first second : Nat}
    {one other : Task size} {name : StreamId}
    (there : (swarm.connect place task tag caller callee host server).tasks first = some one)
    (also : (swarm.connect place task tag caller callee host server).tasks second = some other)
    (holds : one.held = some name) (held : other.held = some name) : first = second := by
  rcases connect_tasks there with ⟨rfl, rfl⟩ | ⟨rfl, rfl⟩ | ⟨_, _, old⟩ <;>
    rcases connect_tasks also with ⟨rfl, rfl⟩ | ⟨rfl, rfl⟩ | ⟨_, _, early⟩
  · rfl
  · cases holds
    cases held
    exact absurd rfl fresh.apart
  · cases holds
    exact absurd rfl (orderly.held_old fresh early held).2
  · cases holds
    cases held
    exact absurd rfl fresh.apart
  · rfl
  · cases holds
    exact absurd rfl (orderly.held_old fresh early held).1
  · cases held
    exact absurd rfl (orderly.held_old fresh old holds).2
  · cases held
    exact absurd rfl (orderly.held_old fresh old holds).1
  · exact orderly.alone first second one other name old early holds held

/-- A swarm in which a stream is opened stays orderly. -/
theorem Orderly.connect (orderly : Orderly timing start swarm)
    (fresh : Fresh swarm place task caller callee server) :
    Orderly timing start (swarm.connect place task tag caller callee host server) where
  nodes := orderly.nodes
  distinct := orderly.distinct
  clocks := orderly.clocks
  links _ _ known := orderly.connect_end fresh known
  held _ _ _ there holds := orderly.connect_held fresh there holds
  alone _ _ _ _ _ there also holds held := orderly.connect_alone fresh there also holds held
  historic := orderly.historic

/-- All jobs but the one that gets the stream are at points to go on from. -/
theorem Sound.connect_awaits (sound : Sound timing start swarm)
    (fresh : Fresh swarm place task caller callee server) {spot : Nat} {other : Task size}
    (there : (swarm.connect place task tag caller callee host server).tasks spot = some other)
    (apart : spot ≠ place) :
    Awaits timing ((swarm.connect place task tag caller callee host server).view other)
      other.stage := by
  rcases connect_tasks there with ⟨rfl, rfl⟩ | ⟨same, _⟩ | ⟨_, _, old⟩
  · change ∃ link, (swarm.connect place task tag caller callee host spot).links callee =
      some link ∧ _
    exact ⟨_, links_callee, rfl, rfl, rfl, rfl, rfl⟩
  · exact absurd same apart
  · have link : other.held.bind (swarm.connect place task tag caller callee host server).links =
        other.held.bind swarm.links := by
      cases holds : other.held with
      | none => rfl
      | some name =>
          obtain ⟨link, known⟩ := sound.held spot other name old holds
          rw [Option.bind_some, Option.bind_some, known, fresh.links_old known]
    have same : (swarm.connect place task tag caller callee host server).view other =
        swarm.view other := by
      rw [view, link]
      rfl
    rw [same]
    exact sound.tasks spot other old

end Connecting

section Nodes

/-- A node that changes by itself keeps its record and its settings, and no time is taken back. -/
structure Renews (timing : Timing) (chronicle : Chronicle) (before after : Node) : Prop where
  sound : NodeSound timing chronicle after
  record : after.record = before.record
  settings : after.settings = before.settings
  clock : ∀ lifetime, timing = .shared lifetime → before.clock ≤ after.clock
  engines : ∀ algorithm, Spares timing chronicle after.clock (before.engine algorithm)
    (after.engine algorithm)

theorem Renews.refl {chronicle : Chronicle} {node : Node}
    (sound : NodeSound timing chronicle node) : Renews timing chronicle node node :=
  ⟨sound, rfl, rfl, fun _ _ => Timestamp.le_refl _, fun _ => .refl _⟩

/-- Between the turns of their jobs, nodes may change by themselves. -/
theorem Sound.renew (sound : Sound timing start swarm) {nodes : Fin size → Node}
    (renews : ∀ host, Renews timing swarm.chronicle (swarm.nodes host) (nodes host))
    (clocks : ∀ lifetime, timing = .shared lifetime → ∀ first second,
      (nodes first).clock = (nodes second).clock) :
    Sound timing start { swarm with nodes } ∧ Advances timing swarm { swarm with nodes } := by
  have id (host : Fin size) : (nodes host).record.id = (swarm.nodes host).record.id :=
    congrArg PeerRecord.id (renews host).record
  refine ⟨⟨⟨fun host => (renews host).sound, fun first second same => ?_, clocks,
    fun name link known => ?_, sound.held, sound.alone, sound.historic⟩,
    fun place task found => ?_⟩, .refl _, id,
    fun lifetime shared host => (renews host).clock lifetime shared,
    fun host => (renews host).engines⟩
  · rw [id, id] at same
    exact sound.distinct first second same
  · have before := sound.links name link known
    exact ⟨before.name, before.carries, fun lifetime shared host =>
      Timestamp.le_trans (before.opened lifetime shared host)
        ((renews host).clock lifetime shared), before.peer⟩
  · have renewed := renews task.host
    exact (sound.tasks place task found).interferes
      ⟨⟨.refl _, id task.host, renewed.settings, rfl, renewed.clock⟩, renewed.sound, rfl⟩

/-- What an engine holds does not depend on the time. -/
theorem spares_clock {chronicle : Chronicle} {now time : Timestamp} {node : Node}
    {algorithm : Algorithm} : Spares timing chronicle now (node.engine algorithm)
      (({ node with clock := time } : Node).engine algorithm) := by
  by_cases running : ∃ engine ∈ node.engines, engine.algorithm = algorithm
  · rw [engine_of_running time running]
    exact .refl _
  · rintro lifetime shared id dead held
    rcases ({ node with clock := time } : Node).engine_mem_or_start algorithm with member | fresh
    · exact absurd ⟨_, member, engine_algorithm _ algorithm⟩ running
    · rw [fresh] at held
      cases held

theorem NodeSound.clock {chronicle : Chronicle} {node : Node}
    (sound : NodeSound timing chronicle node) (time : Timestamp) :
    NodeSound timing chronicle { node with clock := time } :=
  ⟨sound.own, sound.bootstrap, sound.membership, sound.lifetime, sound.engines, sound.trackers⟩

/-- A swept cache holds what it held before, and nothing that is over. -/
theorem sweep_succeeds {now : View} {engine : Engine}
    (sound : EngineSound timing now.chronicle engine) :
    (engine.cache.cleanup now.node.clock).Ensures fun cache =>
      Succeeds timing now engine { engine with cache } := by
  refine (engine.cache.cleanup_origin now.node.clock).mono fun cache origin => ?_
  refine ⟨rfl, ⟨fun copy held => ?_, sound.fallback, sound.lifetime⟩, spares_of_ids ?_ rfl⟩
  · exact sound.cache copy (origin copy held).1
  · intro id held
    obtain ⟨copy, stored, rfl⟩ := mem_ids.mp held
    exact mem_ids_of_mem (origin copy stored).1

end Nodes

section Steps

/-- The jobs once a node has started one. -/
theorem start_tasks {place spot : Nat} {fresh other : Task size}
    (there : Function.update swarm.tasks place (some fresh) spot = some other) :
    (spot = place ∧ other = fresh) ∨ swarm.tasks spot = some other := by
  by_cases this : spot = place
  · subst this
    rw [Function.update_self] at there
    exact Or.inl ⟨rfl, (Option.some.inj there).symm⟩
  · rw [Function.update_of_ne this] at there
    exact Or.inr there

theorem Orderly.start_job (orderly : Orderly timing start swarm) {place : Nat} {fresh : Task size}
    (free : fresh.held = none) : Orderly timing start { swarm with
      tasks := Function.update swarm.tasks place (some fresh) } where
  nodes := orderly.nodes
  distinct := orderly.distinct
  clocks := orderly.clocks
  links name link known := by
    have before := orderly.links name link known
    exact ⟨before.name, before.carries, before.opened, before.peer⟩
  held spot other name there holds := by
    rcases start_tasks there with ⟨rfl, rfl⟩ | old
    · cases free.symm.trans holds
    · exact orderly.held spot other name old holds
  alone first second one other name there also holds held := by
    rcases start_tasks there with ⟨rfl, rfl⟩ | old
    · cases free.symm.trans holds
    · rcases start_tasks also with ⟨rfl, rfl⟩ | early
      · cases free.symm.trans held
      · exact orderly.alone first second one other name old early holds held
  historic := orderly.historic

theorem Sound.start_job (sound : Sound timing start swarm) (host : Fin size) {job : Job}
    (own : isOwn job) (place : Nat) : Sound timing start { swarm with
      tasks := Function.update swarm.tasks place (some ⟨host, none, seeds job, .ready job⟩) } := by
  refine ⟨sound.toOrderly.start_job rfl, fun spot other there => ?_⟩
  rcases start_tasks there with ⟨rfl, rfl⟩ | old
  · exact ready_own own fun seeding => seeding
  · exact sound.tasks spot other old

theorem Sound.turn (sound : Sound timing start swarm) {place : Nat} {task : Task size} {job : Job}
    {rest : Program Node (Option Job)} {after : View} (found : swarm.tasks place = some task)
    (ready : task.stage = .ready job)
    (settles : Settles (Node.turn job) (swarm.view task) rest after) :
    Sound timing start (swarm.settle place task rest after) ∧
      Advances timing swarm (swarm.settle place task rest after) := by
  have awaits := sound.tasks place task found
  rw [ready] at awaits
  have here := sound.view_sound task
  obtain ⟨reached, moves, stands⟩ :=
    settles.sound here ((keeps_turn here awaits).mono fun _ _ ends => ends.2)
  exact ⟨sound.sound_settle found (fun spot other there _ => sound.tasks spot other there) reached
    moves stands, settle_advances place rest moves⟩

/-- An answer is one that the job has to expect, and moves nothing but what was read. -/
theorem Sound.answers (sound : Sound timing start swarm) {task : Task size}
    {request : Request} {reply : request.Reply} {middle : View}
    (answer : swarm.Answers timing (swarm.view task) request reply middle) :
    Delivers timing (swarm.view task) request reply middle ∧ ViewSound timing middle ∧
      Moves timing (swarm.view task) middle := by
  have here := sound.view_sound task
  cases request with
  | connect address tag patience deadline =>
      obtain ⟨closed, rfl⟩ := answer
      refine ⟨?_, here, .refl _⟩
      cases reply with
      | opened name => exact absurd rfl (closed name)
      | failed fault => rfl
      | expired => rfl
  | read stream count deadline =>
      obtain ⟨link, peer, got, holds, named, opposite, front, whole, rfl⟩ := answer
      obtain ⟨name, _, known⟩ := Option.bind_eq_some_iff.mp holds
      obtain ⟨other, there, faces⟩ := (sound.links name link known).peer
      cases opposite.symm.trans there
      have carries := (sound.links _ peer opposite).carries
      refine ⟨⟨link, peer, got, holds, named, faces, carries, front, whole, rfl⟩,
        ⟨here.node, fun lifetime shared later same => ?_⟩, read_moves holds _⟩
      cases same
      exact here.opened lifetime shared link holds
  | write stream bytes deadline =>
      cases answer
      exact ⟨rfl, here, .refl _⟩
  | pause span signals =>
      cases answer
      exact ⟨rfl, here, .refl _⟩
  | join worker =>
      cases answer
      exact ⟨rfl, here, .refl _⟩
  | _ => exact answer.elim

theorem Sound.reply (sound : Sound timing start swarm) {place : Nat} {task : Task size}
    {request : Request} {next : request.Reply → Program Node (Option Job)} {reply : request.Reply}
    {rest : Program Node (Option Job)} {middle after : View}
    (found : swarm.tasks place = some task) (standing : task.stage = .standing request next)
    (answer : swarm.Answers timing (swarm.view task) request reply middle)
    (settles : Settles (next reply) middle rest after) :
    Sound timing start (swarm.settle place task rest after) ∧
      Advances timing swarm (swarm.settle place task rest after) := by
  have awaits := sound.tasks place task found
  rw [standing] at awaits
  obtain ⟨delivers, between, moved⟩ := sound.answers answer
  obtain ⟨reached, moves, stands⟩ := settles.sound between
    (awaits _ (.refl (sound.view_sound task)) reply middle delivers)
  have whole := moved.trans moves
  exact ⟨sound.sound_settle found (fun spot other there _ => sound.tasks spot other there) reached
    whole stands, settle_advances place rest whole⟩

theorem Sound.connection (sound : Sound timing start swarm) {place server : Nat}
    {task : Task size} {address : SocketAddress} {tag : Wire.ServiceTag} {patience : Duration}
    {deadline : Instant} {next : Connecting → Program Node (Option Job)}
    {caller callee : StreamId} {host : Fin size} {rest : Program Node (Option Job)} {after : View}
    (fresh : Fresh swarm place task caller callee server)
    (standing : task.stage = .standing (.connect address tag patience deadline) next)
    (settles : Settles (next (.opened caller))
      ((swarm.connect place task tag caller callee host server).view
        { task with held := some caller }) rest after) :
    let connected := swarm.connect place task tag caller callee host server
    let calling := { task with held := some caller }
    Sound timing start (connected.settle place calling rest after) ∧
      Advances timing swarm (connected.settle place calling rest after) := by
  intro connected calling
  have awaits := sound.tasks place task fresh.found
  rw [standing] at awaits
  have orderly : Orderly timing start connected := sound.connect fresh
  have view : connected.view calling = { swarm.view task with
      link := some ⟨caller, callee, tag, false, (swarm.nodes task.host).clock, [],
        (swarm.nodes task.host).clock, []⟩ } := by
    have link : connected.links caller = _ := fresh.links_caller
    change View.mk _ _ ((some caller).bind connected.links) _ = _
    rw [Option.bind_some, link]
    rfl
  have delivers : Delivers timing (swarm.view task) (.connect address tag patience deadline)
      (.opened caller) (connected.view calling) :=
    ⟨_, rfl, rfl, rfl, rfl, rfl, rfl, view⟩
  obtain ⟨reached, moves, stands⟩ := settles.sound (orderly.view_sound calling)
    (awaits _ (.refl (sound.view_sound task)) _ _ delivers)
  refine ⟨orderly.sound_settle fresh.tasks_place
    (fun spot other there apart => sound.connect_awaits fresh there apart) reached moves stands, ?_⟩
  obtain ⟨grows, id, clock, engines⟩ := settle_advances place rest moves
  exact ⟨grows, id, clock, engines⟩

/-- One node may evolve between the turns of its jobs. -/
theorem Sound.replace (sound : Sound timing start swarm) {host : Fin size} {state : Node}
    (evolves : Evolves timing ⟨swarm.nodes host, swarm.chronicle, none, false⟩ state)
    (record : state.record = (swarm.nodes host).record) :
    Sound timing start { swarm with nodes := Function.update swarm.nodes host state } ∧
      Advances timing swarm { swarm with nodes := Function.update swarm.nodes host state } := by
  have kept := evolves.sound
  rw [record, Chronicle.advertise_same (sound.nodes host).own] at kept
  have clock : state.clock = (swarm.nodes host).clock := evolves.clock
  have still (other : Fin size) :
      (Function.update swarm.nodes host state other).clock = (swarm.nodes other).clock := by
    by_cases own : other = host
    · subst own
      rw [Function.update_self, clock]
    · rw [Function.update_of_ne own]
  refine sound.renew (fun other => ?_) fun lifetime shared first second => ?_
  · by_cases own : other = host
    · subst own
      rw [Function.update_self]
      refine ⟨kept, record, evolves.settings, fun _ _ => ?_, fun algorithm => ?_⟩
      · rw [clock]
        exact Timestamp.le_refl _
      · rw [clock]
        exact evolves.engines algorithm
    · rw [Function.update_of_ne own]
      exact .refl (sound.nodes other)
  · rw [still, still]
    exact sound.clocks lifetime shared first second

/-- Sweeping a cache is a change of one node. -/
theorem Sound.sweep (sound : Sound timing start swarm) (host : Fin size) (algorithm : Algorithm) :
    let node := swarm.nodes host
    let engine := node.engine algorithm
    let swept := engine.cache.cleanup node.clock node.dice
    let next : Swarm size := { swarm with
      nodes := Function.update swarm.nodes host
        ({ node with dice := swept.2 }.withEngine { engine with cache := swept.1 }) }
    Sound timing start next ∧ Advances timing swarm next := by
  have here : ViewSound timing ⟨swarm.nodes host, swarm.chronicle, none, false⟩ :=
    ⟨sound.nodes host, fun _ _ link held => by cases held⟩
  have succeeds := @sweep_succeeds timing ⟨swarm.nodes host, swarm.chronicle, none, false⟩ _
    ((sound.nodes host).engine algorithm) (swarm.nodes host).dice
  exact sound.replace (evolves_engine _ here succeeds) rfl

/-- Where clocks are set, they are set to what they may show next. -/
theorem Sound.tick (sound : Sound timing start swarm) {nodes : Fin size → Node}
    (clock : ∀ host, ∃ time, nodes host = { swarm.nodes host with clock := time })
    (later : ∀ lifetime, timing = .shared lifetime → ∀ host,
      (swarm.nodes host).clock ≤ (nodes host).clock)
    (clocks : ∀ lifetime, timing = .shared lifetime → ∀ first second,
      (nodes first).clock = (nodes second).clock) :
    Sound timing start { swarm with nodes } ∧ Advances timing swarm { swarm with nodes } := by
  refine sound.renew (fun host => ?_) clocks
  obtain ⟨time, same⟩ := clock host
  have order := fun lifetime shared => later lifetime shared host
  rw [same] at order ⊢
  exact ⟨(sound.nodes host).clock time, rfl, rfl, order, fun _ => spares_clock⟩

/-- Every step leaves a sound swarm sound. -/
theorem Sound.step (sound : Sound timing start swarm) (step : Step timing swarm next) :
    Sound timing start next ∧ Advances timing swarm next := by
  cases step with
  | start host job place own free =>
      exact ⟨sound.start_job host own place, .refl _, fun _ => rfl, fun _ _ _ => Timestamp.le_refl _,
        fun _ _ => .refl _⟩
  | turn place task job rest after found ready settles => exact sound.turn found ready settles
  | reply place task request next reply rest middle after found standing answer settles =>
      exact sound.reply found standing answer settles
  | connection place task address tag patience deadline next caller callee host server rest after
      found standing freeCaller freeCallee apart freeServer settles =>
      exact sound.connection ⟨found, freeCaller, freeCallee, apart, freeServer⟩ standing settles
  | clock host time free =>
      have apart (lifetime : UInt64) : timing ≠ .shared lifetime := by
        intro shared
        cases free.symm.trans shared
      refine sound.tick (fun other => ?_) (fun lifetime shared => absurd shared (apart lifetime))
        fun lifetime shared => absurd shared (apart lifetime)
      by_cases own : other = host
      · subst own
        exact ⟨time, Function.update_self ..⟩
      · exact ⟨(swarm.nodes other).clock, Function.update_of_ne own ..⟩
  | pass time later =>
      exact sound.tick (fun _ => ⟨time, rfl⟩) (fun _ _ => later) fun _ _ _ _ => rfl
  | cleanup host algorithm => exact sound.sweep host algorithm

end Steps

section Runs

/-- Whatever the nodes of a sound swarm do, it stays sound, and its history goes on. -/
theorem Sound.run (sound : Sound timing start swarm) (run : Run timing swarm next) :
    Sound timing start next ∧ swarm.chronicle.Grows next.chronicle ∧
      ∀ host, (next.nodes host).record.id = (swarm.nodes host).record.id := by
  induction run with
  | refl => exact ⟨sound, .refl _, fun _ => rfl⟩
  | tail _ step ih =>
      obtain ⟨sound, grows, id⟩ := ih
      obtain ⟨later, advances⟩ := sound.step step
      exact ⟨later, grows.trans advances.grows, fun host => (advances.id host).trans (id host)⟩

/-- A node that has not heard of anybody knows nothing but its own record. -/
theorem Begins.node_sound (begins : Begins timing swarm) (host : Fin size) :
    NodeSound timing swarm.chronicle (swarm.nodes host) := by
  obtain ⟨settings, record, clock, dice, bootstrap, source, node⟩ := begins.nodes host
  have lifetime (lifetime : UInt64) (shared : timing = .shared lifetime) :
      settings.entryLifetime = lifetime := by
    obtain ⟨time, common⟩ := begins.timing lifetime shared
    have same := (common host).2
    rwa [node] at same
  have told := begins.advertised host
  rw [node] at told ⊢
  refine ⟨?_, source, rfl, lifetime, fun engine member => ?_, fun tracker made => ?_⟩
  · rw [told, List.head?_cons]
  · obtain ⟨algorithm, _, rfl⟩ := List.mem_map.mp member
    exact start_sound lifetime
  · cases made

theorem Begins.historic (begins : Begins timing swarm) :
    Historic swarm.chronicle swarm.chronicle := by
  refine ⟨fun id => ?_, fun id => rfl⟩
  by_cases known : ∃ host, (swarm.nodes host).record.id = id
  · obtain ⟨host, rfl⟩ := known
    rw [begins.advertised host]
    exact .singleton _
  · rw [begins.strangers id fun host same => known ⟨host, same⟩]
    exact .nil

/-- Nodes that have not done anything are as they should be. -/
theorem Begins.sound (begins : Begins timing swarm) : Sound timing swarm.chronicle swarm where
  nodes := begins.node_sound
  distinct := begins.distinct
  clocks lifetime shared first second := by
    obtain ⟨time, common⟩ := begins.timing lifetime shared
    rw [(common first).1, (common second).1]
  links name link known := by cases (begins.links name).symm.trans known
  held place task name found := by cases (begins.tasks place).symm.trans found
  alone place _ task _ _ found := by cases (begins.tasks place).symm.trans found
  historic := begins.historic
  tasks place task found := by cases (begins.tasks place).symm.trans found

end Runs

end Overlay.Swarm
