import Overlay.Program.Attempt

/-!
Programs in the world around them.

A run is a path through the tree of a program: its requests are answered by the world. `Keeps`
follows every run at once and has a rule for each way in which programs are put together; whatever
it says of the end of a program holds at the end of every run (`Keeps.ends`).
-/

set_option autoImplicit false

namespace Overlay

variable {σ S α β : Type}

/-- What surrounds a program: a wider state of which the program sees and replaces a part, and the
answers that a request may get there. -/
structure Surroundings (σ S : Type) where
  look : S → σ
  leave : S → σ → S
  Answers : (request : Request) → S → request.Reply → S → Prop
  /-- The states that a program may leave behind. -/
  Accepts : σ → S → Prop
  /-- The requests that a program may make. -/
  Admits : Request → S → Prop

namespace Surroundings

variable (world : Surroundings σ S)

/-- A run of a program from one state of the world to another, and the value it ends with. -/
inductive Runs : Program σ α → S → α → S → Prop
  | done (value : α) (now : S) : Runs (.done value) now value now
  | get {next : σ → Program σ α} {now after : S} {value : α}
      (rest : Runs (next (world.look now)) now value after) : Runs (.get next) now value after
  | put {state : σ} {next : Program σ α} {now after : S} {value : α}
      (rest : Runs next (world.leave now state) value after) :
      Runs (.put state next) now value after
  | ask {request : Request} {next : request.Reply → Program σ α} {reply : request.Reply}
      {now middle after : S} {value : α} (answer : world.Answers request now reply middle)
      (rest : Runs (next reply) middle value after) : Runs (.ask request next) now value after

/-- A program makes admitted requests only, leaves accepted states only, and whenever it ends,
`post` holds. -/
def Keeps : Program σ α → (α → S → Prop) → S → Prop
  | .done value, post, now => post value now
  | .get next, post, now => Keeps (next (world.look now)) post now
  | .put state next, post, now => world.Accepts state now ∧ Keeps next post (world.leave now state)
  | .ask request next, post, now => world.Admits request now ∧
      ∀ reply middle, world.Answers request now reply middle → Keeps (next reply) post middle

variable {world} {now : S}

theorem Keeps.ends {program : Program σ α} {post : α → S → Prop} {value : α} {after : S}
    (keeps : world.Keeps program post now) (run : world.Runs program now value after) :
    post value after := by
  induction run with
  | done => exact keeps
  | get _ ih => exact ih keeps
  | put _ ih => exact ih keeps.2
  | ask answer _ ih => exact ih (keeps.2 _ _ answer)

/-- A run of a program whose answer is changed in the end is a run of the program. -/
theorem Runs.of_map {program : Program σ α} {change : α → β} {value : β} {after : S}
    (run : world.Runs (change <$> program) now value after) :
    ∃ told, world.Runs program now told after ∧ change told = value := by
  change world.Runs (program.bind fun told => .done (change told)) now value after at run
  induction program generalizing now with
  | done told =>
      cases run
      exact ⟨told, .done told _, rfl⟩
  | get next ih =>
      cases run with
      | get rest =>
          obtain ⟨told, run, same⟩ := ih _ rest
          exact ⟨told, .get run, same⟩
  | put state next ih =>
      cases run with
      | put rest =>
          obtain ⟨told, run, same⟩ := ih rest
          exact ⟨told, .put run, same⟩
  | ask request next ih =>
      cases run with
      | ask answer rest =>
          obtain ⟨told, run, same⟩ := ih _ rest
          exact ⟨told, .ask answer run, same⟩

/-- Where every request has an answer, every program has a run. -/
theorem exists_runs
    (answered : ∀ request now, ∃ reply after, world.Answers request now reply after)
    (program : Program σ α) : ∃ value after, world.Runs program now value after := by
  induction program generalizing now with
  | done value => exact ⟨value, now, .done value now⟩
  | get next ih =>
      obtain ⟨value, after, run⟩ := @ih (world.look now) now
      exact ⟨value, after, .get run⟩
  | put state next ih =>
      obtain ⟨value, after, run⟩ := @ih (world.leave now state)
      exact ⟨value, after, .put run⟩
  | ask request next ih =>
      obtain ⟨reply, middle, answer⟩ := answered request now
      obtain ⟨value, after, run⟩ := @ih reply middle
      exact ⟨value, after, .ask answer run⟩

theorem Keeps.mono {program : Program σ α} {weak strong : α → S → Prop}
    (keeps : world.Keeps program strong now)
    (implies : ∀ value after, strong value after → weak value after) :
    world.Keeps program weak now := by
  induction program generalizing now with
  | done value => exact implies value now keeps
  | get next ih => exact ih _ keeps
  | put state next ih => exact ⟨keeps.1, ih keeps.2⟩
  | ask request next ih =>
      exact ⟨keeps.1, fun reply middle answer => ih reply (keeps.2 reply middle answer)⟩

theorem keeps_congr {program : Program σ α} {one other : α → S → Prop}
    (same : ∀ value after, one value after ↔ other value after) :
    world.Keeps program one now ↔ world.Keeps program other now :=
  ⟨fun keeps => keeps.mono fun value after => (same value after).mp,
    fun keeps => keeps.mono fun value after => (same value after).mpr⟩

theorem Keeps.and {program : Program σ α} {one other : α → S → Prop}
    (first : world.Keeps program one now) (second : world.Keeps program other now) :
    world.Keeps program (fun value after => one value after ∧ other value after) now := by
  induction program generalizing now with
  | done value => exact ⟨first, second⟩
  | get next ih => exact ih _ first second
  | put state next ih => exact ⟨first.1, ih first.2 second.2⟩
  | ask request next ih =>
      exact ⟨first.1, fun reply middle answer =>
        ih reply (first.2 reply middle answer) (second.2 reply middle answer)⟩

/-- Where requests get fewer answers, programs keep up at least as much. -/
theorem Keeps.narrow {Answers : (request : Request) → S → request.Reply → S → Prop}
    (fewer : ∀ request now reply after, Answers request now reply after →
      world.Answers request now reply after)
    {program : Program σ α} {post : α → S → Prop} (keeps : world.Keeps program post now) :
    { world with Answers }.Keeps program post now := by
  induction program generalizing now with
  | done value => exact keeps
  | get next ih => exact ih _ keeps
  | put state next ih => exact ⟨keeps.1, ih keeps.2⟩
  | ask request next ih =>
      exact ⟨keeps.1, fun reply middle answer =>
        ih reply (keeps.2 reply middle (fewer request now reply middle answer))⟩

section Rules

variable {post : β → S → Prop}

@[simp] theorem keeps_pure (value : β) :
    world.Keeps (pure value) post now ↔ post value now := Iff.rfl

/-- One program after the other. -/
@[simp] theorem keeps_bind (program : Program σ α) (next : α → Program σ β) :
    world.Keeps (program >>= next) post now ↔
      world.Keeps program (fun value => world.Keeps (next value) post) now := by
  change world.Keeps (program.bind next) post now ↔ _
  induction program generalizing now with
  | done value => rfl
  | get step ih => exact ih _
  | put state step ih => exact and_congr_right fun _ => ih
  | ask request step ih =>
      exact and_congr_right fun _ => forall_congr' fun reply => forall_congr' fun middle =>
        imp_congr_right fun _ => ih reply

@[simp] theorem keeps_map (program : Program σ α) (change : α → β) :
    world.Keeps (change <$> program) post now ↔
      world.Keeps program (fun value => post (change value)) now := by
  rw [map_eq_pure_bind, keeps_bind]
  rfl

@[simp] theorem keeps_get {post : σ → S → Prop} :
    world.Keeps (get : Program σ σ) post now ↔ post (world.look now) now := Iff.rfl

@[simp] theorem keeps_set {post : PUnit → S → Prop} (state : σ) :
    world.Keeps (set state : Program σ PUnit) post now ↔
      world.Accepts state now ∧ post ⟨⟩ (world.leave now state) := Iff.rfl

@[simp] theorem keeps_modify {post : PUnit → S → Prop} (change : σ → σ) :
    world.Keeps (modify change : Program σ PUnit) post now ↔
      world.Accepts (change (world.look now)) now ∧
        post ⟨⟩ (world.leave now (change (world.look now))) := Iff.rfl

theorem keeps_ite {condition : Prop} [Decidable condition] {first second : Program σ β}
    (yes : condition → world.Keeps first post now)
    (no : ¬ condition → world.Keeps second post now) :
    world.Keeps (if condition then first else second) post now := by
  split
  · next holds => exact yes holds
  · next fails => exact no fails

/-- What every part of a loop keeps up, the loop keeps up. -/
theorem keeps_forM (kept : S → Prop) {items : List α} {each : α → Program σ PUnit}
    {post : PUnit → S → Prop} (holds : kept now)
    (one : ∀ item ∈ items, ∀ middle, kept middle →
      world.Keeps (each item) (fun _ after => kept after) middle)
    (ends : ∀ after, kept after → post ⟨⟩ after) : world.Keeps (items.forM each) post now := by
  induction items generalizing now with
  | nil => exact ends now holds
  | cons item items ih =>
      change world.Keeps (each item >>= fun _ => items.forM each) post now
      rw [keeps_bind]
      refine (one item List.mem_cons_self now holds).mono fun _ middle goesOn => ?_
      exact ih goesOn fun other member => one other (List.mem_cons_of_mem item member)

variable {post : Except Failure β → S → Prop}

@[simp] theorem keeps_run_pure (value : β) :
    world.Keeps (pure value : Attempt σ β).run post now ↔ post (.ok value) now := Iff.rfl

@[simp] theorem keeps_run_throw (failure : Failure) :
    world.Keeps (throw failure : Attempt σ β).run post now ↔ post (.error failure) now := Iff.rfl

@[simp] theorem keeps_run_perform (program : Program σ β) :
    world.Keeps (Attempt.perform program).run post now ↔
      world.Keeps program (fun value => post (.ok value)) now :=
  keeps_map program Except.ok

/-- One attempt after another that succeeded. -/
@[simp] theorem keeps_run_bind (attempt : Attempt σ α) (next : α → Attempt σ β) :
    world.Keeps (attempt >>= next).run post now ↔
      world.Keeps attempt.run (fun result middle => match result with
        | .ok value => world.Keeps (next value).run post middle
        | .error failure => post (.error failure) middle) now := by
  rw [ExceptT.run_bind, keeps_bind]
  refine keeps_congr fun result middle => ?_
  cases result with
  | ok value => rfl
  | error failure => rfl

theorem keeps_run_ite {condition : Prop} [Decidable condition] {first second : Attempt σ β}
    (yes : condition → world.Keeps first.run post now)
    (no : ¬ condition → world.Keeps second.run post now) :
    world.Keeps (if condition then first else second).run post now := by
  split
  · next holds => exact yes holds
  · next fails => exact no fails

@[simp] theorem keeps_run_get {post : Except Failure σ → S → Prop} :
    world.Keeps (get : Attempt σ σ).run post now ↔ post (.ok (world.look now)) now := Iff.rfl

@[simp] theorem keeps_run_modify {post : Except Failure PUnit → S → Prop} (change : σ → σ) :
    world.Keeps (modify change : Attempt σ PUnit).run post now ↔
      world.Accepts (change (world.look now)) now ∧
        post (.ok ⟨⟩) (world.leave now (change (world.look now))) := Iff.rfl

end Rules

end Surroundings

end Overlay
