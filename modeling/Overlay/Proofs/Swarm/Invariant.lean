import Overlay.Proofs.Swarm.Stretch

/-!
What holds of a swarm at any time.

Nodes know nothing but what can be traced, streams carry nothing else, and every stream is held by
one job at most (`Orderly`). Every job is at a point from which it keeps to the rules (`Sound`), so
that a job which settles interferes with no other one.
-/

set_option autoImplicit false

namespace Overlay.Swarm

open Node

variable {size : Nat} {timing : Timing} {start : Chronicle} {swarm : Swarm size}

/-- How a turn may end: with nothing, or with another job that a node starts on its own. -/
def Closes (next : Option Job) (after : View) : Prop :=
  ∀ job, next = some job → isOwn job ∧ (seeds job → after.isSeeding)

/-- What a job relies on at a stage. -/
def Awaits (timing : Timing) (view : View) : Stage → Prop
  | .ready job => Ready view job
  | .standing request next => Stands timing Closes (.ask request next) view
  | .ended => True

/-- An end of a stream that carries what it may, and that has another end. -/
structure EndSound (timing : Timing) (swarm : Swarm size) (name : StreamId) (link : Link) :
    Prop where
  name : link.name = name
  carries : Carries timing swarm.chronicle link
  opened : ∀ lifetime, timing = .shared lifetime → ∀ host, link.opened ≤ (swarm.nodes host).clock
  peer : ∃ peer, swarm.links link.peer = some peer ∧ Faces link peer

/-- Nodes and streams as they should be. -/
structure Orderly (timing : Timing) (start : Chronicle) (swarm : Swarm size) : Prop where
  nodes : ∀ host, NodeSound timing swarm.chronicle (swarm.nodes host)
  distinct : ∀ first second,
    (swarm.nodes first).record.id = (swarm.nodes second).record.id → first = second
  clocks : ∀ lifetime, timing = .shared lifetime → ∀ first second,
    (swarm.nodes first).clock = (swarm.nodes second).clock
  links : ∀ name link, swarm.links name = some link → EndSound timing swarm name link
  held : ∀ place task name, swarm.tasks place = some task → task.held = some name →
    ∃ link, swarm.links name = some link
  alone : ∀ first second task other name, swarm.tasks first = some task →
    swarm.tasks second = some other → task.held = some name → other.held = some name →
    first = second
  historic : Historic start swarm.chronicle

/-- Jobs as they should be, too. -/
structure Sound (timing : Timing) (start : Chronicle) (swarm : Swarm size) : Prop extends
    Orderly timing start swarm where
  tasks : ∀ place task, swarm.tasks place = some task →
    Awaits timing (swarm.view task) task.stage

/-- What a step does to every node: it takes no name and no time back, and it spares no engine a
peer that has been silent for too long. -/
structure Advances (timing : Timing) (before after : Swarm size) : Prop where
  grows : before.chronicle.Grows after.chronicle
  id : ∀ host, (after.nodes host).record.id = (before.nodes host).record.id
  clock : ∀ lifetime, timing = .shared lifetime → ∀ host,
    (before.nodes host).clock ≤ (after.nodes host).clock
  engines : ∀ host algorithm, Spares timing after.chronicle (after.nodes host).clock
    ((before.nodes host).engine algorithm) ((after.nodes host).engine algorithm)

section Stages

variable {view after : View}

theorem ready_own {job : Job} (own : isOwn job) (seeding : seeds job → view.isSeeding) :
    Ready view job := by
  cases job with
  | serve | script | scriptedReply => cases own
  | _ => exact seeding

theorem Ready.interferes {job : Job} (ready : Ready view job)
    (interferes : Interferes timing view after) : Ready after job := by
  cases job with
  | serve tag stream =>
      rw [Ready, interferes.link]
      exact ready
  | script | scriptedReply => exact ready.elim
  | _ => exact fun seeds => interferes.isSeeding.trans (ready seeds)

theorem Awaits.interferes {stage : Stage} (awaits : Awaits timing view stage)
    (interferes : Interferes timing view after) : Awaits timing after stage := by
  cases stage with
  | ready job => exact Ready.interferes awaits interferes
  | standing request next => exact Stands.interferes awaits interferes
  | ended => trivial

/-- Where a turn settles, the job is at a point to go on from. -/
theorem Stands.awaits {rest : Program Node (Option Job)}
    (stands : Stands timing Closes rest after) :
    Awaits timing after (.of rest) := by
  cases rest with
  | done value =>
      cases value with
      | none => trivial
      | some job =>
          obtain ⟨own, seeding⟩ := stands job rfl
          exact ready_own own seeding
  | ask request next => exact stands
  | get next => trivial
  | put state next => trivial

end Stages

section Settling

variable {place : Nat} {task : Task size} {rest : Program Node (Option Job)} {after : View}

/-- The end of a stream that a job of an orderly swarm holds. -/
theorem Orderly.link (orderly : Orderly timing start swarm) (found : swarm.tasks place = some task)
    {name : StreamId} (held : task.held = some name) :
    ∃ link, swarm.links name = some link ∧ (swarm.view task).link = some link := by
  obtain ⟨link, known⟩ := orderly.held place task name found held
  refine ⟨link, known, ?_⟩
  rw [view, held, Option.bind_some, known]

theorem Orderly.view_sound (orderly : Orderly timing start swarm) (task : Task size) :
    ViewSound timing (swarm.view task) := by
  refine ⟨orderly.nodes task.host, fun lifetime shared link holds => ?_⟩
  obtain ⟨name, _, known⟩ := Option.bind_eq_some_iff.mp holds
  exact (orderly.links name link known).opened lifetime shared task.host

variable (rest) in
/-- A job that settles touches no stream but the one it holds. -/
theorem Orderly.settle_link (orderly : Orderly timing start swarm)
    (found : swarm.tasks place = some task) (moves : Moves timing (swarm.view task) after)
    (name : StreamId) :
    (task.held ≠ some name ∧
      (swarm.settle place task rest after).links name = swarm.links name) ∨
    (task.held = some name ∧ ∃ link later, swarm.links name = some link ∧
      (swarm.settle place task rest after).links name = some later ∧ after.link = some later ∧
      SameEnd link later ∧
      (Carries timing swarm.chronicle link → Carries timing after.chronicle later)) := by
  cases held : task.held with
  | none =>
      have free : after.link = none := by
        refine moves.unlinked ?_
        rw [view, held, Option.bind_none]
      refine Or.inl ⟨nofun, ?_⟩
      simp only [settle, free]
  | some own =>
      obtain ⟨link, known, holds⟩ := orderly.link found held
      obtain ⟨later, kept, same, carries⟩ := moves.link link holds
      have named : later.name = own := same.name.trans (orderly.links own link known).name
      by_cases this : own = name
      · subst this
        refine Or.inr ⟨rfl, link, later, known, ?_, kept, same, carries⟩
        simp only [settle, kept, named, Function.update_self]
      · refine Or.inl ⟨fun equal => this (Option.some.inj equal), ?_⟩
        simp only [settle, kept, named, Function.update_of_ne (Ne.symm this)]

variable (rest) in
theorem Orderly.settle_view (orderly : Orderly timing start swarm)
    (found : swarm.tasks place = some task) (moves : Moves timing (swarm.view task) after) :
    (swarm.settle place task rest after).view { task with stage := .of rest } = after := by
  have link : task.held.bind (swarm.settle place task rest after).links = after.link := by
    cases held : task.held with
    | none =>
        have free : after.link = none := by
          refine moves.unlinked ?_
          rw [view, held, Option.bind_none]
        rw [free, Option.bind_none]
    | some own =>
        rcases orderly.settle_link rest found moves own with ⟨other, _⟩ | ⟨_, found⟩
        · exact absurd held other
        · obtain ⟨_, later, _, stored, kept, _⟩ := found
          rw [Option.bind_some, stored, kept]
  have seeding : task.isSeeding = after.isSeeding := moves.isSeeding.symm
  simp only [view, link, seeding]
  simp only [settle, Function.update_self]

variable (swarm place task rest after) in
/-- The node of a job that settled, and every other node. -/
theorem settle_node (host : Fin size) :
    (host = task.host ∧ (swarm.settle place task rest after).nodes host = after.node) ∨
      (host ≠ task.host ∧
        (swarm.settle place task rest after).nodes host = swarm.nodes host) := by
  by_cases own : host = task.host
  · subst own
    exact Or.inl ⟨rfl, Function.update_self ..⟩
  · exact Or.inr ⟨own, Function.update_of_ne own ..⟩

variable (place rest) in
theorem settle_advances (moves : Moves timing (swarm.view task) after) :
    Advances timing swarm (swarm.settle place task rest after) where
  grows := moves.grows
  id host := by
    rcases swarm.settle_node place task rest after host with ⟨rfl, node⟩ | ⟨_, node⟩
    · rw [node, moves.id, view]
    · rw [node]
  clock lifetime shared host := by
    rcases swarm.settle_node place task rest after host with ⟨rfl, node⟩ | ⟨_, node⟩
    · rw [node, moves.clock]
      exact Timestamp.le_refl _
    · rw [node]
      exact Timestamp.le_refl _
  engines host algorithm := by
    rcases swarm.settle_node place task rest after host with ⟨rfl, node⟩ | ⟨_, node⟩
    · rw [node]
      exact moves.engines algorithm
    · rw [node]
      exact .refl _

variable (place rest) in
/-- A job that settles leaves every node sound. -/
theorem Orderly.settle_sound (orderly : Orderly timing start swarm)
    (sound : ViewSound timing after) (moves : Moves timing (swarm.view task) after)
    (host : Fin size) : NodeSound timing after.chronicle
      ((swarm.settle place task rest after).nodes host) := by
  rcases swarm.settle_node place task rest after host with ⟨rfl, node⟩ | ⟨other, node⟩
  · rw [node]
    exact sound.node
  · rw [node]
    refine (orderly.nodes host).mono moves.grows (moves.others _ fun same => ?_)
    exact other (orderly.distinct host task.host same)

/-- What a job that settles does to another one. -/
theorem Orderly.settle_interferes (orderly : Orderly timing start swarm)
    (found : swarm.tasks place = some task) (sound : ViewSound timing after)
    (moves : Moves timing (swarm.view task) after) {spot : Nat} {other : Task size}
    (there : swarm.tasks spot = some other) (apart : spot ≠ place) :
    Interferes timing (swarm.view other)
      ((swarm.settle place task rest after).view other) := by
  have advances := settle_advances place rest moves
  refine ⟨⟨moves.grows, advances.id other.host, ?_, rfl, fun lifetime shared =>
    advances.clock lifetime shared other.host⟩,
    orderly.settle_sound place rest sound moves other.host, ?_⟩
  · change ((swarm.settle place task rest after).nodes other.host).settings =
      (swarm.nodes other.host).settings
    rcases swarm.settle_node place task rest after other.host with ⟨own, node⟩ | ⟨_, node⟩
    · rw [node, moves.settings, own, view]
    · rw [node]
  · change other.held.bind (swarm.settle place task rest after).links =
      other.held.bind swarm.links
    cases held : other.held with
    | none => rfl
    | some name =>
        rcases orderly.settle_link rest found moves name with ⟨_, same⟩ | ⟨own, _⟩
        · exact same
        · exact absurd (orderly.alone spot place other task name there found held own) apart

variable (rest after) in
/-- Whoever held a stream holds it still. -/
theorem settle_task (found : swarm.tasks place = some task) {spot : Nat} {other : Task size}
    (there : (swarm.settle place task rest after).tasks spot = some other) :
    ∃ before, swarm.tasks spot = some before ∧ other.held = before.held := by
  simp only [settle] at there
  by_cases this : spot = place
  · subst this
    rw [Function.update_self] at there
    cases there
    exact ⟨task, found, rfl⟩
  · rw [Function.update_of_ne this] at there
    exact ⟨other, there, rfl⟩

variable (place rest) in
theorem settle_clock (moves : Moves timing (swarm.view task) after) (host : Fin size) :
    ((swarm.settle place task rest after).nodes host).clock = (swarm.nodes host).clock := by
  rcases swarm.settle_node place task rest after host with ⟨rfl, node⟩ | ⟨_, node⟩
  · rw [node, moves.clock, view]
  · rw [node]

variable (rest) in
/-- Every end of a stream stays what it was. -/
theorem Orderly.settle_end (orderly : Orderly timing start swarm)
    (found : swarm.tasks place = some task) (moves : Moves timing (swarm.view task) after)
    {name : StreamId} {link : Link} (known : swarm.links name = some link) :
    ∃ later, (swarm.settle place task rest after).links name = some later ∧ SameEnd link later ∧
      Carries timing after.chronicle later := by
  have carries := (orderly.links name link known).carries
  rcases orderly.settle_link rest found moves name with ⟨_, same⟩ | ⟨_, changed⟩
  · exact ⟨link, same.trans known, .refl link, carries.mono moves.grows⟩
  · obtain ⟨before, later, there, stored, _, same, carried⟩ := changed
    cases known.symm.trans there
    exact ⟨later, stored, same, carried carries⟩

/-- A job that settles opens no stream. -/
theorem Orderly.settle_old (orderly : Orderly timing start swarm)
    (found : swarm.tasks place = some task) (moves : Moves timing (swarm.view task) after)
    {name : StreamId} {later : Link}
    (stored : (swarm.settle place task rest after).links name = some later) :
    ∃ link, swarm.links name = some link ∧ SameEnd link later ∧
      Carries timing after.chronicle later := by
  have old : ∃ link, swarm.links name = some link := by
    rcases orderly.settle_link rest found moves name with ⟨_, same⟩ | ⟨_, link, _, known, _⟩
    · exact ⟨later, same.symm.trans stored⟩
    · exact ⟨link, known⟩
  obtain ⟨link, known⟩ := old
  obtain ⟨other, there, same, carries⟩ := orderly.settle_end rest found moves known
  cases there.symm.trans stored
  exact ⟨link, known, same, carries⟩

/-- An orderly swarm in which a job settles stays orderly. -/
theorem Orderly.settled (orderly : Orderly timing start swarm)
    (found : swarm.tasks place = some task) (sound : ViewSound timing after)
    (moves : Moves timing (swarm.view task) after) :
    Orderly timing start (swarm.settle place task rest after) where
  nodes := orderly.settle_sound place rest sound moves
  distinct first second same := by
    have ids := (settle_advances place rest moves).id
    rw [ids, ids] at same
    exact orderly.distinct first second same
  clocks lifetime shared first second := by
    rw [settle_clock place rest moves, settle_clock place rest moves]
    exact orderly.clocks lifetime shared first second
  links name later stored := by
    obtain ⟨link, known, same, carries⟩ := orderly.settle_old found moves stored
    have before := orderly.links name link known
    obtain ⟨peer, opposite, faces⟩ := before.peer
    obtain ⟨facing, there, further, _⟩ := orderly.settle_end rest found moves opposite
    refine ⟨same.name.trans before.name, carries, fun lifetime shared host => ?_, facing, ?_,
      same.faces further faces⟩
    · rw [settle_clock place rest moves, same.opened]
      exact before.opened lifetime shared host
    · rw [same.peer]
      exact there
  held spot other name there holds := by
    obtain ⟨before, was, same⟩ := settle_task rest after found there
    obtain ⟨link, known⟩ := orderly.held spot before name was (same.symm.trans holds)
    obtain ⟨later, stored, _⟩ := orderly.settle_end rest found moves known
    exact ⟨later, stored⟩
  alone first second one other name there also holds held := by
    obtain ⟨early, was, same⟩ := settle_task rest after found there
    obtain ⟨late, were, equal⟩ := settle_task rest after found also
    exact orderly.alone first second early late name was were (same.symm.trans holds)
      (equal.symm.trans held)
  historic := moves.history start orderly.historic

/-- A swarm in which a job settles is sound once the job is at a point from which it keeps to the
rules. -/
theorem Orderly.sound_settle (orderly : Orderly timing start swarm)
    (found : swarm.tasks place = some task)
    (others : ∀ spot other, swarm.tasks spot = some other → spot ≠ place →
      Awaits timing (swarm.view other) other.stage)
    (sound : ViewSound timing after) (moves : Moves timing (swarm.view task) after)
    (stands : Stands timing Closes rest after) :
    Sound timing start (swarm.settle place task rest after) := by
  refine ⟨orderly.settled found sound moves, fun spot other there => ?_⟩
  by_cases this : spot = place
  · subst this
    have same : (swarm.settle spot task rest after).tasks spot =
        some { task with stage := .of rest } := Function.update_self ..
    cases same.symm.trans there
    rw [orderly.settle_view rest found moves]
    exact stands.awaits
  · have before : swarm.tasks spot = some other := (Function.update_of_ne this ..).symm.trans there
    exact (others spot other before this).interferes
      (orderly.settle_interferes found sound moves before this)

end Settling

end Overlay.Swarm
