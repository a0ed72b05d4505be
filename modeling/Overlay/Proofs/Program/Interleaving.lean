import Overlay.Proofs.Program.ReadOnly

/-!
Programs that run beside each other on one state.

Between two requests a program has the state for itself; while it waits for an answer, the others go
on. What every program keeps up as long as the others do, holds throughout (`Reachable.holds`).
-/

set_option autoImplicit false

namespace Overlay

variable {σ α ι : Type}

/-- Runs a program up to its next request, or to its end. -/
def Program.settle : Program σ α → σ → Program σ α × σ
  | .get next, state => (next state).settle state
  | .put state next, _ => next.settle state
  | rest, state => (rest, state)

namespace Interleaving

open Program Surroundings

/-- What was reported so far, newest first, once a request was made. -/
def recorded (reported : List Event) : Request → List Event
  | .report event => event :: reported
  | _ => reported

theorem subset_recorded (reported : List Event) (request : Request) :
    reported ⊆ recorded reported request := by
  cases request with
  | report event => exact List.subset_cons_self event reported
  | _ => exact List.Subset.refl reported

/-- A state that several programs work on, and what is left of them. -/
structure Shared (σ : Type) where
  state : σ
  reported : List Event
  running : List (Program σ PUnit)

/-- One step: a program is started, one of them gets an answer and goes on, or something else works
on the state. -/
inductive Step (deed : ι → Program σ PUnit) (others : σ → σ → Prop) : Shared σ → Shared σ → Prop
  | start (now : Shared σ) (name : ι) :
      Step deed others now
        { now with
          state := ((deed name).settle now.state).2
          running := ((deed name).settle now.state).1 :: now.running }
  | reply (now : Shared σ) {before after : List (Program σ PUnit)} {request : Request}
      {next : request.Reply → Program σ PUnit} (reply : request.Reply)
      (waits : now.running = before ++ .ask request next :: after) :
      Step deed others now
        { state := ((next reply).settle now.state).2
          reported := recorded now.reported request
          running := before ++ ((next reply).settle now.state).1 :: after }
  | other (now : Shared σ) {state : σ} (works : others now.state state) :
      Step deed others now { now with state }

/-- What may come of a state that no program has worked on. -/
inductive Reachable (deed : ι → Program σ PUnit) (others : σ → σ → Prop) (first : σ) :
    Shared σ → Prop
  | start : Reachable deed others first ⟨first, [], []⟩
  | step {now after : Shared σ} (reachable : Reachable deed others first now)
      (step : Step deed others now after) : Reachable deed others first after

/-- A state among others that keep an invariant up. While a program waits, anything may become of
the state that the invariant allows, and what was reported stays. -/
def amid (invariant : σ → List Event → Prop) : Surroundings σ (σ × List Event) where
  look := Prod.fst
  leave now state := (state, now.2)
  Answers request now _ after := invariant after.1 after.2 ∧ recorded now.2 request ⊆ after.2
  Accepts state now := invariant state now.2
  Admits _ _ := True

variable {invariant : σ → List Event → Prop} {now : σ × List Event}

/-- The invariant goes on to hold, and what was reported stays. -/
def Follows (invariant : σ → List Event → Prop) (now after : σ × List Event) : Prop :=
  (invariant now.1 now.2 → invariant after.1 after.2) ∧ now.2 ⊆ after.2

theorem Follows.trans {first second third : σ × List Event}
    (before : Follows invariant first second) (after : Follows invariant second third) :
    Follows invariant first third :=
  ⟨fun holds => after.1 (before.1 holds), List.Subset.trans before.2 after.2⟩

theorem amid_steady : (amid invariant).Steady (Follows invariant) where
  refl _ := ⟨id, List.Subset.refl _⟩
  trans _ _ _ := Follows.trans
  admits _ _ := trivial
  answers request now _ _ answer :=
    ⟨fun _ => answer.1, List.Subset.trans (subset_recorded now.2 request) answer.2⟩

theorem keeps_readOnly {program : Program σ α} (readOnly : program.IsReadOnly)
    (holds : invariant now.1 now.2) {post : α → σ × List Event → Prop}
    (ends : ∀ value after, invariant after.1 after.2 → now.2 ⊆ after.2 → post value after) :
    (amid invariant).Keeps program post now :=
  amid_steady.keeps readOnly fun value after follows =>
    ends value after (follows.1 holds) follows.2

/-- What is reported has been reported from then on. -/
theorem keeps_report {event : Event} {post : Unit → σ × List Event → Prop}
    (ends : ∀ after, invariant after.1 after.2 → event :: now.2 ⊆ after.2 → post () after) :
    (amid invariant).Keeps (Program.report event) post now :=
  ⟨trivial, fun _ after answer => ends after answer.1 answer.2⟩

/-- A program keeps the invariant up, now and in whatever state it goes on. -/
def Withstands (invariant : σ → List Event → Prop) (reported : List Event)
    (program : Program σ α) : Prop :=
  ∀ state later, invariant state later → reported ⊆ later →
    (amid invariant).Keeps program (fun _ _ => True) (state, later)

theorem Withstands.mono {reported later : List Event} {program : Program σ α}
    (withstands : Withstands invariant reported program) (grown : reported ⊆ later) :
    Withstands invariant later program :=
  fun state _ holds further => withstands state _ holds (List.Subset.trans grown further)

/-- A program that has come to its next request can wait for the answer. -/
theorem withstands_settle {program : Program σ α} {state : σ} {reported : List Event}
    (holds : invariant state reported)
    (keeps : (amid invariant).Keeps program (fun _ _ => True) (state, reported)) :
    invariant (program.settle state).2 reported ∧
      Withstands invariant reported (program.settle state).1 := by
  induction program generalizing state with
  | done value => exact ⟨holds, fun _ _ _ _ => trivial⟩
  | get next ih => exact ih state holds keeps
  | put left next ih => exact ih keeps.1 keeps.2
  | ask request next ih =>
      refine ⟨holds, fun _ later _ grown => ⟨trivial, fun reply middle answer => ?_⟩⟩
      refine keeps.2 reply middle ⟨answer.1, List.Subset.trans ?_ answer.2⟩
      cases request with
      | report event => exact List.cons_subset_cons event grown
      | _ => exact grown

section Reachable

variable {deed : ι → Program σ PUnit} {others : σ → σ → Prop} {first : σ}

/-- The invariant holds, and whatever is left of a program keeps it up. -/
structure Sound (invariant : σ → List Event → Prop) (shared : Shared σ) : Prop where
  holds : invariant shared.state shared.reported
  running : ∀ program ∈ shared.running, Withstands invariant shared.reported program

theorem Sound.step {shared after : Shared σ} (sound : Sound invariant shared)
    (deeds : ∀ name state reported, invariant state reported →
      (amid invariant).Keeps (deed name) (fun _ _ => True) (state, reported))
    (works : ∀ state after reported, invariant state reported → others state after →
      invariant after reported)
    (reports : ∀ state reported event, invariant state reported →
      invariant state (event :: reported))
    (step : Step deed others shared after) : Sound invariant after := by
  cases step with
  | start name =>
      obtain ⟨holds, withstands⟩ :=
        withstands_settle sound.holds (deeds name _ _ sound.holds)
      exact ⟨holds, List.forall_mem_cons.mpr ⟨withstands, sound.running⟩⟩
  | @reply _ _ request _ reply waits =>
      have running := sound.running
      rw [waits] at running
      obtain ⟨others, behind⟩ := List.forall_mem_append.mp running
      obtain ⟨standing, rest⟩ := List.forall_mem_cons.mp behind
      have told : invariant shared.state (recorded shared.reported request) := by
        cases request with
        | report event => exact reports _ _ event sound.holds
        | _ => exact sound.holds
      have grown := subset_recorded shared.reported request
      have goesOn := (standing _ _ sound.holds (List.Subset.refl _)).2 reply
        (shared.state, recorded shared.reported request) ⟨told, List.Subset.refl _⟩
      obtain ⟨holds, withstands⟩ := withstands_settle told goesOn
      refine ⟨holds, List.forall_mem_append.mpr ⟨fun program member => ?_,
        List.forall_mem_cons.mpr ⟨withstands, fun program member => ?_⟩⟩⟩
      · exact (others program member).mono grown
      · exact (rest program member).mono grown
  | other worked => exact ⟨works _ _ _ sound.holds worked, sound.running⟩

/-- What every program keeps up as long as the others do, holds whichever of them goes on when. -/
theorem Reachable.holds {shared : Shared σ} (reachable : Reachable deed others first shared)
    (begins : invariant first [])
    (deeds : ∀ name state reported, invariant state reported →
      (amid invariant).Keeps (deed name) (fun _ _ => True) (state, reported))
    (works : ∀ state after reported, invariant state reported → others state after →
      invariant after reported)
    (reports : ∀ state reported event, invariant state reported →
      invariant state (event :: reported)) : invariant shared.state shared.reported := by
  suffices sound : Sound invariant shared from sound.holds
  induction reachable with
  | start => exact ⟨begins, nofun⟩
  | step _ step ih => exact ih.step deeds works reports step

/-- What becomes of a state and of what is reported when a program runs alone and gets the same
answer to the same request each time. -/
def outcome (answer : (request : Request) → request.Reply) :
    Program σ α → σ × List Event → σ × List Event
  | .done _, now => now
  | .get next, now => outcome answer (next now.1) now
  | .put state next, now => outcome answer next (state, now.2)
  | .ask request next, now =>
    outcome answer (next (answer request)) (now.1, recorded now.2 request)

theorem Reachable.answered (answer : (request : Request) → request.Reply)
    {program : Program σ PUnit} {running : List (Program σ PUnit)}
    (reachable : Reachable deed others first
      ⟨(program.settle now.1).2, now.2, (program.settle now.1).1 :: running⟩) :
    Reachable deed others first
      ⟨(outcome answer program now).1, (outcome answer program now).2, .done ⟨⟩ :: running⟩ := by
  induction program generalizing now with
  | done value => exact reachable
  | get next ih => exact ih now.1 reachable
  | put state next ih => exact @ih (state, now.2) reachable
  | ask request next ih =>
      refine @ih (answer request) (now.1, recorded now.2 request) (reachable.step ?_)
      exact @Step.reply _ _ deed others _ [] running request next (answer request) rfl

/-- A program may run from its start to its end. -/
theorem Reachable.runs (answer : (request : Request) → request.Reply)
    {running : List (Program σ PUnit)} (name : ι)
    (reachable : Reachable deed others first ⟨now.1, now.2, running⟩) :
    Reachable deed others first
      ⟨(outcome answer (deed name) now).1, (outcome answer (deed name) now).2,
        .done ⟨⟩ :: running⟩ :=
  (reachable.step (.start _ name)).answered answer

end Reachable

end Interleaving

end Overlay
