import Mathlib.Data.List.DropRight
import Overlay.Proofs.Binary64.Extended
import Overlay.Proofs.Peer
import Overlay.Tracker

/-!
What a tracker remembers of its history.

A tracker keeps a count, a flag and a bounded window; `Reflects` ties the three to everything that
has happened to it, however long ago. The distance it shows is then the one that the whole history
makes (`Reflects.shows`), where the least sample of a window is said by how it compares to the
others (`IsMinimum`) and the mean by what the samples add up to (`IsMean`).
-/

set_option autoImplicit false

namespace Overlay

namespace SampleWindow

section Summaries

variable {samples : List Binary64} {value : Binary64}

/-- The least of some samples. What is no number does not count, and the least of none is
infinity. -/
structure IsMinimum (samples : List Binary64) (value : Binary64) : Prop where
  proper : ¬ value.isNaN
  lower : ∀ sample ∈ samples, ¬ sample.isNaN → value.extended ≤ sample.extended
  taken : value ∈ samples ∨ (∀ sample ∈ samples, sample.isNaN) ∧ value = .infinity

theorem IsMinimum.concat (minimum : IsMinimum samples value) (sample : Binary64) :
    IsMinimum (samples ++ [sample]) (value.min sample) := by
  have kept : value.min sample = if sample.lt value then sample else value :=
    if_neg minimum.proper
  by_cases undefined : sample.isNaN
  · have apart : ¬ sample.lt value :=
      Bool.eq_false_iff.mp (Binary64.not_lt_of_isNaN undefined)
    rw [kept, if_neg apart]
    refine ⟨minimum.proper, List.forall_mem_append.mpr ⟨minimum.lower, ?_⟩, ?_⟩
    · exact List.forall_mem_singleton.mpr (absurd undefined)
    · refine minimum.taken.imp (List.mem_append_left _) (And.imp_left fun none => ?_)
      exact List.forall_mem_append.mpr ⟨none, List.forall_mem_singleton.mpr undefined⟩
  · have compared := Binary64.lt_iff_extended_lt undefined minimum.proper
    by_cases less : sample.lt value
    · rw [kept, if_pos less]
      refine ⟨undefined, List.forall_mem_append.mpr ⟨fun earlier held proper => ?_, ?_⟩, ?_⟩
      · exact (compared.mp less).le.trans (minimum.lower earlier held proper)
      · exact List.forall_mem_singleton.mpr fun _ => le_rfl
      · exact Or.inl List.mem_concat_self
    · rw [kept, if_neg less]
      have above : value.extended ≤ sample.extended :=
        not_lt.mp fun below => less (compared.mpr below)
      refine ⟨minimum.proper, List.forall_mem_append.mpr ⟨minimum.lower, ?_⟩, Or.inl ?_⟩
      · exact List.forall_mem_singleton.mpr fun _ => above
      · rcases minimum.taken with held | ⟨-, rfl⟩
        · exact List.mem_append_left _ held
        -- the first number of all may be infinity itself
        · rw [Binary64.extended_infinity] at above
          rw [Binary64.eq_infinity undefined above]
          exact List.mem_concat_self

theorem isMinimum_least (samples : List Binary64) : IsMinimum samples (least samples) := by
  induction samples using List.reverseRecOn with
  | nil => exact ⟨by decide, nofun, Or.inr ⟨nofun, rfl⟩⟩
  | append_singleton samples sample ih =>
      rw [least, List.foldl_append]
      exact ih.concat sample

/-- What samples add up to one after the other, the oldest one first, where every sum is a double
again. -/
inductive AddsUp : List Binary64 → Binary64 → Prop
  | nothing : AddsUp [] .negativeZero
  | concat {samples : List Binary64} {total : Binary64} (earlier : AddsUp samples total)
      (sample : Binary64) : AddsUp (samples ++ [sample]) (total + sample)

theorem addsUp_foldl (samples : List Binary64) :
    AddsUp samples (samples.foldl (· + ·) .negativeZero) := by
  induction samples using List.reverseRecOn with
  | nil => exact .nothing
  | append_singleton samples sample ih =>
      rw [List.foldl_append]
      exact ih.concat sample

/-- The sum of some samples over their number. -/
def IsMean (samples : List Binary64) (value : Binary64) : Prop :=
  ∃ total, AddsUp samples total ∧ value = total / Binary64.ofNat samples.length

/-- Which number sums up the samples of a full window. -/
def SumsUp : DistanceMode → List Binary64 → Binary64 → Prop
  | .min => IsMinimum
  | .mean => IsMean

end Summaries

variable {window : SampleWindow}

theorem size_eq {taken : List Binary64} (latest : window.samples = taken.rtake window.capacity) :
    window.size = min taken.length window.capacity := by
  rw [size, latest, List.rtake, List.length_drop]
  omega

/-- A window that holds the latest of some samples holds the latest of them and one more. -/
theorem samples_push {taken : List Binary64} (positive : 0 < window.capacity)
    (latest : window.samples = taken.rtake window.capacity) (sample : Binary64) :
    (window.push sample).samples = (taken ++ [sample]).rtake window.capacity := by
  obtain ⟨others, room⟩ := Nat.exists_eq_add_one_of_ne_zero (Nat.ne_of_gt positive)
  have held := size_eq latest
  have kept : (if window.isFull then window.samples.drop 1 else window.samples) =
      taken.rtake others := by
    rw [latest, List.rtake, List.rtake, List.drop_drop]
    split
    · next full =>
        have full := eq_of_beq full
        exact congrArg taken.drop (by omega)
    · next partly =>
        have partly : window.size ≠ window.capacity := fun full => partly (beq_iff_eq.mpr full)
        exact congrArg taken.drop (by omega)
  rw [room, List.rtake_concat_succ, ← kept]
  rfl

section Distance

variable {taken : List Binary64} (latest : window.samples = taken.rtake window.capacity)
  (mode : DistanceMode)
include latest

theorem distance_of_few (few : taken.length < window.capacity) :
    window.distance mode = .unknown := by
  have held := size_eq latest
  have partly : window.isFull = false := beq_false_of_ne (by omega)
  exact if_neg (Bool.eq_false_iff.mp partly)

theorem distance_of_enough (enough : window.capacity ≤ taken.length) :
    ∃ value, window.distance mode = .millis value ∧
      SumsUp mode (taken.rtake window.capacity) value := by
  have held := size_eq latest
  have full : window.isFull = true := beq_iff_eq.mpr (by omega)
  refine ⟨_, if_pos full, ?_⟩
  rw [← latest]
  cases mode with
  | min => exact isMinimum_least window.samples
  | mean => exact ⟨_, addsUp_foldl window.samples, rfl⟩

end Distance

end SampleWindow

namespace Tracker

/-- What counts for the distance of a neighbor: how a ping of it ended, or that it was given up. -/
inductive Change
  | pinged (outcome : Except Failure Binary64)
  | retired

/-- The tracker after a change. -/
def change (tracker : Tracker) : Change → Tracker
  | .pinged (.ok roundTrip) => tracker.succeeded roundTrip
  | .pinged (.error _) => tracker.failed
  | .retired => tracker.retired

/-- How the pings of a history ended, the oldest one first. -/
def outcomes (history : List Change) : List (Except Failure Binary64) :=
  history.filterMap fun
    | .pinged outcome => some outcome
    | .retired => none

/-- What the pings that went well have taken. -/
def roundTrips (history : List Change) : List Binary64 :=
  (outcomes history).filterMap Except.toOption

/-- The number of pings that failed since the last one that went well. -/
def streak (history : List Change) : Nat :=
  ((outcomes history).rtakeWhile fun outcome => !outcome.isOk).length

/-- Whether the neighbor was given up. -/
def isOver (history : List Change) : Bool :=
  history.any fun
    | .pinged _ => false
    | .retired => true

/-- The number of samples that a window has room for. -/
def room (settings : Settings) : Nat := max 1 settings.sampleWindow.toNat

/-- Whether a history leaves the neighbor out of reach. -/
def IsLost (settings : Settings) (history : List Change) : Prop :=
  isOver history ∨ settings.maxPingFailures.toNat < streak history

/-- The distance is the one that the history of a neighbor makes. -/
@[mk_iff]
structure Shows (settings : Settings) (history : List Change) (distance : Distance) : Prop where
  unreachable : distance = .unreachable ↔ IsLost settings history
  unknown : distance = .unknown ↔
    ¬ IsLost settings history ∧ (roundTrips history).length < room settings
  /-- Of more round trips than there is room for, the latest count. -/
  measured : ¬ IsLost settings history → room settings ≤ (roundTrips history).length →
    ∃ value, distance = .millis value ∧
      SampleWindow.SumsUp settings.distanceMode ((roundTrips history).rtake (room settings)) value

section History

variable (history : List Change)

@[simp] theorem roundTrips_succeeded (roundTrip : Binary64) :
    roundTrips (history ++ [Change.pinged (.ok roundTrip)]) =
      roundTrips history ++ [roundTrip] := by
  simp [roundTrips, outcomes, Except.toOption]

@[simp] theorem roundTrips_failed (failure : Failure) :
    roundTrips (history ++ [Change.pinged (.error failure)]) = roundTrips history := by
  simp [roundTrips, outcomes, Except.toOption]

@[simp] theorem roundTrips_retired :
    roundTrips (history ++ [Change.retired]) = roundTrips history := by
  simp [roundTrips, outcomes]

@[simp] theorem streak_succeeded (roundTrip : Binary64) :
    streak (history ++ [Change.pinged (.ok roundTrip)]) = 0 := by
  simp [streak, outcomes, Except.isOk, Except.toBool]

@[simp] theorem streak_failed (failure : Failure) :
    streak (history ++ [Change.pinged (.error failure)]) = streak history + 1 := by
  simp [streak, outcomes, Except.isOk, Except.toBool]

@[simp] theorem streak_retired : streak (history ++ [Change.retired]) = streak history := by
  simp [streak, outcomes]

@[simp] theorem isOver_pinged (outcome : Except Failure Binary64) :
    isOver (history ++ [Change.pinged outcome]) = isOver history := by
  simp [isOver]

@[simp] theorem isOver_retired : isOver (history ++ [Change.retired]) = true := by
  simp [isOver]

end History

theorem toNat_failures_failed (tracker : Tracker) :
    tracker.failed.failures.toNat = min (tracker.failures.toNat + 1) (UInt32.size - 1) :=
  toNat_saturating tracker.failures

/-- A tracker remembers what counts of a history. -/
structure Reflects (settings : Settings) (history : List Change) (tracker : Tracker) : Prop where
  capacity : tracker.window.capacity = room settings
  samples : tracker.window.samples = (roundTrips history).rtake tracker.window.capacity
  /-- The count stops at its largest value. -/
  failures : tracker.failures.toNat = min (streak history) (UInt32.size - 1)
  ended : tracker.ended = isOver history

section Reflects

variable {settings : Settings} {history : List Change} {tracker : Tracker}

theorem start_reflects (record : PeerRecord) (settings : Settings) :
    Reflects settings [] (start record settings) where
  capacity := Nat.max_comm _ _
  samples := (List.rtake_nil _).symm
  failures := rfl
  ended := rfl

theorem Reflects.succeeded (reflects : Reflects settings history tracker) (roundTrip : Binary64) :
    Reflects settings (history ++ [Change.pinged (.ok roundTrip)])
      (tracker.succeeded roundTrip) where
  capacity := reflects.capacity
  samples := by
    have positive : 0 < tracker.window.capacity := by
      rw [reflects.capacity, room]
      omega
    rw [roundTrips_succeeded]
    exact SampleWindow.samples_push positive reflects.samples roundTrip
  failures := by
    rw [streak_succeeded, Nat.zero_min]
    rfl
  ended := by
    rw [isOver_pinged]
    exact reflects.ended

theorem Reflects.failed (reflects : Reflects settings history tracker) (failure : Failure) :
    Reflects settings (history ++ [Change.pinged (.error failure)]) tracker.failed where
  capacity := reflects.capacity
  samples := by
    rw [roundTrips_failed]
    exact reflects.samples
  failures := by
    rw [toNat_failures_failed, reflects.failures, streak_failed]
    omega
  ended := by
    rw [isOver_pinged]
    exact reflects.ended

theorem Reflects.retired (reflects : Reflects settings history tracker) :
    Reflects settings (history ++ [Change.retired]) tracker.retired where
  capacity := reflects.capacity
  samples := by
    rw [roundTrips_retired]
    exact reflects.samples
  failures := by
    rw [streak_retired]
    exact reflects.failures
  ended := (isOver_retired history).symm

/-- What the peer tells about itself does not count. -/
theorem Reflects.refreshed (reflects : Reflects settings history tracker) (record : PeerRecord) :
    Reflects settings history (tracker.refreshed record) :=
  ⟨reflects.capacity, reflects.samples, reflects.failures, reflects.ended⟩

theorem Reflects.change (reflects : Reflects settings history tracker) (change : Change) :
    Reflects settings (history ++ [change]) (tracker.change change) := by
  match change with
  | .pinged (.ok roundTrip) => exact reflects.succeeded roundTrip
  | .pinged (.error failure) => exact reflects.failed failure
  | .retired => exact reflects.retired

/-- However many changes come one after the other, what counts of them is remembered. -/
theorem Reflects.changes (reflects : Reflects settings history tracker) (changes : List Change) :
    Reflects settings (history ++ changes) (changes.foldl Tracker.change tracker) := by
  induction changes generalizing history tracker with
  | nil =>
      rw [List.append_nil]
      exact reflects
  | cons change rest ih =>
      have further := ih (reflects.change change)
      rwa [List.append_assoc, List.singleton_append] at further

theorem Reflects.unreachable (reflects : Reflects settings history tracker)
    (retired : isOver history = true) : tracker.distance settings = .unreachable := by
  rw [distance, reflects.ended, retired, Bool.true_or, if_pos rfl]

/-- The distance that a tracker shows is the one that its history makes, as long as the failures in
a row can be counted. -/
theorem Reflects.shows (reflects : Reflects settings history tracker)
    (countable : streak history < UInt32.size) :
    Shows settings history (tracker.distance settings) := by
  have lost : (tracker.ended || settings.maxPingFailures < tracker.failures) = true ↔
      IsLost settings history := by
    rw [Bool.or_eq_true, decide_eq_true_iff, reflects.ended, UInt32.lt_iff_toNat_lt,
      reflects.failures]
    exact or_congr_right (by omega)
  by_cases away : IsLost settings history
  · have unreachable : tracker.distance settings = .unreachable := if_pos (lost.mpr away)
    rw [unreachable]
    exact ⟨iff_of_true rfl away, iff_of_false nofun fun few => few.1 away, absurd away⟩
  · have there : tracker.distance settings = tracker.window.distance settings.distanceMode :=
      if_neg (away ∘ lost.mp)
    rw [there]
    by_cases few : (roundTrips history).length < room settings
    · have unknown := SampleWindow.distance_of_few reflects.samples settings.distanceMode
        (reflects.capacity ▸ few)
      rw [unknown]
      exact ⟨iff_of_false nofun away, iff_of_true rfl ⟨away, few⟩,
        fun _ enough => absurd few (Nat.not_lt.mpr enough)⟩
    · obtain ⟨value, shown, sums⟩ := SampleWindow.distance_of_enough reflects.samples
        settings.distanceMode (reflects.capacity ▸ Nat.not_lt.mp few)
      rw [shown]
      refine ⟨iff_of_false nofun away, iff_of_false nofun fun short => few short.2, fun _ _ => ?_⟩
      exact ⟨value, rfl, reflects.capacity ▸ sums⟩

end Reflects

section Recovery

variable (settings : Settings) (past : List Change) (failing : List Failure) (roundTrip : Binary64)

theorem roundTrips_failing :
    roundTrips (past ++ failing.map fun failure => .pinged (.error failure)) = roundTrips past := by
  induction failing using List.reverseRecOn with
  | nil => simp
  | append_singleton failing failure ih =>
      rw [List.map_append, ← List.append_assoc, List.map_singleton, roundTrips_failed, ih]

theorem isLost_succeeded :
    IsLost settings (past ++ [Change.pinged (.ok roundTrip)]) ↔ isOver past := by
  simp [IsLost]

/-- After a ping that went well, only the round trips count, and whether the neighbor was given
up. -/
theorem shows_recovered {distance : Distance} :
    Shows settings (past ++ failing.map (fun failure => .pinged (.error failure)) ++
      [Change.pinged (.ok roundTrip)]) distance ↔
    Shows settings (past ++ [Change.pinged (.ok roundTrip)]) distance := by
  have kept : isOver (past ++ failing.map fun failure => .pinged (.error failure)) =
      isOver past := by
    simp [isOver]
  simp only [shows_iff, isLost_succeeded, roundTrips_succeeded, roundTrips_failing, kept]

end Recovery

end Tracker

end Overlay
