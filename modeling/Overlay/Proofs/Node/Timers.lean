import Overlay.Proofs.Node.Pace
import Overlay.Proofs.Program.Interleaving
import Overlay.Proofs.Program.Play
import Overlay.Proofs.Settings

/-!
The timers that the loops of a node arm.

The jobs of a node run beside each other, any number of them and in any order, and each timer is
noted with the job that arms it (`clocked`). No timer of a loop is shorter than the interval of the
loop or longer than twice the interval, so as long as the interval is not zero the loop waits
(`timers_bounded`). Usable settings may still have one interval of zero, that of the trackers.
-/

set_option autoImplicit false

namespace Overlay.Node.Timers

open Interleaving Pace Program Surroundings

/-- A timer, with the job that arms it. -/
structure Timer where
  job : Job
  span : Duration

/-- A node, and the timers that its jobs have armed, newest first. -/
structure Clocked where
  node : Node
  timers : List Timer

/-- The timers once a job has made a request. -/
def noted (job : Job) (request : Request) (timers : List Timer) : List Timer :=
  match timer? request with
  | some span => ⟨job, span⟩ :: timers
  | none => timers

section Clocked

variable {α : Type}

/-- The program of a job, with a note of every timer that it arms. -/
def clocked (job : Job) : Program Node α → Program Clocked α
  | .done value => .done value
  | .get next => .get fun now => clocked job (next now.node)
  | .put node next => .get fun now => .put { now with node } (clocked job next)
  | .ask request next => .get fun now =>
    .put { now with timers := noted job request now.timers }
      (.ask request fun reply => clocked job (next reply))

/-- The notes change nothing: the program makes the same requests, and leaves the same node. -/
theorem settle_clocked (job : Job) (program : Program Node α) (now : Clocked) :
    (clocked job program).settle now = match program.settle now.node with
      | (.ask request next, node) =>
        (.ask request fun reply => clocked job (next reply),
          ⟨node, noted job request now.timers⟩)
      | (rest, node) => (clocked job rest, ⟨node, now.timers⟩) := by
  induction program generalizing now with
  | done value => rfl
  | get next ih => exact ih now.node now
  | put node next ih => exact ih { now with node }
  | ask request next ih => rfl

end Clocked

/-- One turn of a job, with a note of its timers. -/
def clockedTurn (job : Job) : Program Clocked PUnit := do
  let _ ← clocked job (turn job)
  pure ⟨⟩

/-- What is done to a node beside its jobs, which changes neither its settings nor its source. -/
structure OtherWork (now after : Clocked) : Prop where
  settings : after.node.settings = now.node.settings
  portion : after.node.dice.portion = now.node.dice.portion
  timers : after.timers = now.timers

/-- The node works with these settings and this source, and so do its timers. -/
structure Sound (settings : Settings) (portion : DrawCount → Binary64) (now : Clocked) : Prop where
  configured : now.node.settings = settings
  source : now.node.dice.portion = portion
  timers : ∀ timer ∈ now.timers, (ofJob settings portion timer.job).allows timer.span

section Sound

variable {settings : Settings} {portion : DrawCount → Binary64} {α : Type}

theorem Sound.noted {now : Clocked} (sound : Sound settings portion now) {job : Job}
    {request : Request}
    (admitted : ∀ span, timer? request = some span → (ofJob settings portion job).allows span) :
    Sound settings portion { now with timers := noted job request now.timers } where
  configured := sound.configured
  source := sound.source
  timers := by
    rw [Timers.noted]
    split
    · next span timed => exact List.forall_mem_cons.mpr ⟨admitted span timed, sound.timers⟩
    · exact sound.timers

/-- A job that observes its pace keeps what is noted sound. -/
theorem keeps_clocked {job : Job} {program : Program Node α} {post : α → Node → Prop}
    {now : Clocked} {reported : List Event}
    (keeps : (ofJob settings portion job).world.Keeps program post now.node)
    (sound : Sound settings portion now) :
    (amid fun now _ => Sound settings portion now).Keeps (clocked job program)
      (fun _ _ => True) (now, reported) := by
  induction program generalizing now reported with
  | done value => trivial
  | get next ih => exact ih now.node keeps sound
  | put node next ih =>
      have left : Sound settings portion { now with node } :=
        ⟨keeps.1.settings, keeps.1.portion, sound.timers⟩
      exact ⟨left, @ih { now with node } reported keeps.2 left⟩
  | ask request next ih =>
      refine ⟨sound.noted keeps.1, trivial, fun reply after answer => ?_⟩
      have equipped : Equipped (ofJob settings portion job) after.1.node :=
        ⟨answer.1.configured, answer.1.source⟩
      exact ih reply (keeps.2 reply _ equipped) answer.1

theorem Sound.otherWork {now after : Clocked} (sound : Sound settings portion now)
    (works : OtherWork now after) : Sound settings portion after where
  configured := works.settings.trans sound.configured
  source := works.portion.trans sound.source
  timers := by
    rw [works.timers]
    exact sound.timers

/-- Whichever job goes on when, every timer is one that its job may arm. -/
theorem sound_of_reachable {node : Node} {shared : Shared Clocked}
    (reachable : Reachable clockedTurn OtherWork ⟨node, []⟩ shared) :
    Sound node.settings node.dice.portion shared.state := by
  refine @Reachable.holds _ _ (fun now _ => Sound node.settings node.dice.portion now) _ _ _ _
    reachable ⟨rfl, rfl, nofun⟩ (fun job now reported sound => ?_)
    (fun _ _ _ => Sound.otherWork) fun _ _ _ => id
  rw [clockedTurn, keeps_bind]
  exact keeps_clocked (observes_turn job now.node ⟨sound.configured, sound.source⟩) sound

end Sound

section Intervals

variable {settings : Settings} {job : Job} {interval : Duration}

theorem ofMillis_ne_zero {millis : UInt64} (positive : millis ≠ 0) :
    (Duration.ofMillis millis.toNat).nanos ≠ 0 := by
  have counted : millis.toNat ≠ 0 := fun none => positive (UInt64.toNat_inj.mp none)
  rw [Duration.ofMillis]
  dsimp only
  omega

/-- Intervals are given as whole milliseconds of sixty-four bits. -/
theorem interval_short (loops : interval? settings job = some interval) :
    interval.nanos < 2 ^ 64 * 1000000 := by
  have short (millis : UInt64) : (Duration.ofMillis millis.toNat).nanos < 2 ^ 64 * 1000000 :=
    Nat.mul_lt_mul_of_pos_right (UInt64.toNat_lt millis) (by norm_num)
  cases job with
  | gossip | gossipRound | refinement | maintenance | tracker =>
      cases loops
      exact short _
  | _ => cases loops

/-- Only the interval of the trackers may be zero in settings that can be used. -/
theorem interval_zero_iff (usable : settings.Usable)
    (loops : interval? settings job = some interval) : interval.nanos = 0 ↔
      (∃ serial, job = .tracker serial) ∧ settings.neighborPingInterval = 0 := by
  have checked {millis : UInt64} (positive : millis ≠ 0) (other : ∀ serial, job ≠ .tracker serial) :
      (Duration.ofMillis millis.toNat).nanos = 0 ↔
        (∃ serial, job = .tracker serial) ∧ settings.neighborPingInterval = 0 :=
    iff_of_false (ofMillis_ne_zero positive) fun tracker => other _ tracker.1.choose_spec
  cases job with
  | gossip | gossipRound =>
      cases loops
      exact checked usable.gossip nofun
  | refinement =>
      cases loops
      exact checked usable.vivaldi nofun
  | maintenance =>
      cases loops
      exact checked usable.cluster nofun
  | tracker serial =>
      cases loops
      refine ⟨fun none => ⟨⟨serial, rfl⟩, ?_⟩, fun tracker => ?_⟩
      · exact Decidable.byContradiction fun positive => ofMillis_ne_zero positive none
      · rw [Settings.neighborPause, tracker.2]
        rfl
  | _ => cases loops

end Intervals

/-- Every timer that a loop arms lies between its interval and twice the interval, whatever the
source of fractions and whichever job goes on when. With settings that can be used it is not zero,
but for the timers of trackers whose interval is zero. -/
theorem timers_bounded {node : Node} {shared : Shared Clocked}
    (valid : node.settings.validate = .ok node.settings) (fair : Dice.Fair node.dice.portion)
    (reachable : Reachable clockedTurn OtherWork ⟨node, []⟩ shared) :
    ∀ timer ∈ shared.state.timers, ∀ interval, interval? node.settings timer.job = some interval →
      interval ≤ timer.span ∧ timer.span ≤ interval + interval ∧
      (timer.span.nanos = 0 ↔
        (∃ serial, timer.job = .tracker serial) ∧ node.settings.neighborPingInterval = 0) := by
  intro timer armed interval loops
  obtain ⟨count, drawn⟩ := (sound_of_reachable reachable).timers timer armed interval loops
  have lower : interval ≤ timer.span := drawn ▸ Duration.le_jittered interval _
  have upper : timer.span ≤ interval + interval :=
    drawn ▸ (fair count).jittered_le (interval_short loops)
  refine ⟨lower, upper, ?_⟩
  rw [← interval_zero_iff (Settings.validate_eq_ok_iff.mp valid) loops]
  change interval.nanos ≤ timer.span.nanos at lower
  change timer.span.nanos ≤ interval.nanos + interval.nanos at upper
  omega

section Loops

/-- A node that draws halves and knows nobody. -/
def alone (settings : Settings) : Node :=
  Node.start settings (.numbered 0) ⟨0⟩ (.constant 0 ⟨0x3fe0000000000000⟩) .none none

theorem fair_alone (settings : Settings) : Dice.Fair (alone settings).dice.portion := by
  have half : Dice.IsShare ⟨0x3fe0000000000000⟩ := ⟨by decide +kernel, by decide +kernel⟩
  exact fun _ => half

/-- One turn of each of the jobs, one after the other. Nobody answers, and nothing cuts a wait
short. -/
def turns (settings : Settings) (jobs : List Job) : Shared Clocked :=
  jobs.foldl (fun shared job =>
    let now := outcome (answering .expired fun _ => .ended) (clockedTurn job)
      (shared.state, shared.reported)
    ⟨now.1, now.2, .done ⟨⟩ :: shared.running⟩) ⟨⟨alone settings, []⟩, [], []⟩

theorem reachable_turns (settings : Settings) (jobs : List Job) :
    Reachable clockedTurn OtherWork ⟨alone settings, []⟩ (turns settings jobs) := by
  rw [turns]
  induction jobs using List.reverseRecOn with
  | nil => exact .start
  | append_singleton jobs job ih =>
      rw [List.foldl_append]
      exact ih.runs (answering .expired fun _ => .ended) job

/-- All kinds of loops. -/
def loops : List Job := [.gossip .arrg 0, .refinement 0, .maintenance 0, .tracker 0]

theorem timers_bounded_brisk :
    (turns .brisk loops).state.timers.map (·.span.nanos) =
      [150000000, 150000000, 75000000, 75000000] ∧
    ∀ timer ∈ (turns .brisk loops).state.timers, ∀ interval,
      interval? .brisk timer.job = some interval →
      interval ≤ timer.span ∧ timer.span ≤ interval + interval ∧
      (timer.span.nanos = 0 ↔
        (∃ serial, timer.job = .tracker serial) ∧ Settings.brisk.neighborPingInterval = 0) :=
  ⟨by decide +kernel,
    @timers_bounded (alone .brisk) _ (by decide) (fair_alone _) (reachable_turns _ _)⟩

/-- Settings that can be used, and with which trackers do not wait. -/
def hasty : Settings := { Settings.brisk with neighborPingInterval := 0 }

/-- The interval of the trackers is not checked, so a tracker may ping without a pause. -/
theorem tracker_unpaced : ¬ ∀ (node : Node) (shared : Shared Clocked),
    node.settings.validate = .ok node.settings → Dice.Fair node.dice.portion →
    Reachable clockedTurn OtherWork ⟨node, []⟩ shared →
    ∀ timer ∈ shared.state.timers, ∀ interval, interval? node.settings timer.job = some interval →
      0 < timer.span.nanos ∧ interval ≤ timer.span ∧ timer.span ≤ interval + interval := by
  intro bounded
  have armed : (turns hasty [.tracker 0]).state.timers.map (fun timer =>
      (timer.span.nanos, interval? hasty timer.job)) = [(0, some ⟨0⟩)] := by decide +kernel
  obtain ⟨timer, told, same⟩ := List.mem_map.mp (armed ▸ List.mem_singleton_self _)
  have positive := (bounded (alone hasty) _ (by decide) (fair_alone hasty)
    (reachable_turns hasty [.tracker 0]) timer told ⟨0⟩ (congrArg Prod.snd same)).1
  exact absurd (congrArg Prod.fst same) positive.ne'

end Loops

end Overlay.Node.Timers
