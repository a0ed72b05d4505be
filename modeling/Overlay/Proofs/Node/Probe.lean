import Overlay.Node.Neighbors
import Overlay.Proofs.Program.ReadOnly
import Overlay.Proofs.Tracker

/-!
Pings of a tracked peer in any surroundings.

A ping waits many times and replaces the state twice: once the peer has told its record, and once
the ping counts. What the surroundings keep up meanwhile and what the two changes keep up is all
that matters of them (`keeps_pingOnce`).
-/

set_option autoImplicit false

namespace Overlay.Node

open Attempt Program Surroundings

variable {S : Type} {world : Surroundings Node S} {Follows : S → S → Prop} {now : S} {serial : Nat}

/-- Either a record bears the name that the tracker knows its peer by, or the new name has just been
reported. -/
def Announced (world : Surroundings Node S) (serial : Nat) (record : PeerRecord) (now : S) : Prop :=
  record.id = ((world.look now).tracker serial).record.id ∨
    ∃ expected address earlier,
      world.Answers (.report (.neighborReplaced expected record.id address)) earlier () now

theorem keeps_probe (steady : world.Steady Follows)
    (refreshes : ∀ middle record, Follows now middle → Announced world serial record middle →
      let refreshed := (world.look middle).withTracker serial (·.refreshed record)
      world.Accepts refreshed middle ∧ Follows now (world.leave middle refreshed))
    {post : Except Failure Binary64 → S → Prop}
    (holds : ∀ result after, Follows now after → post result after) :
    world.Keeps (probe serial).run post now := by
  simp only [probe, keeps_run_bind, keeps_run_get]
  refine steady.keeps (readOnly_requestRecord _ _ _) fun result told follows => ?_
  cases result with
  | error failure => exact holds _ told follows
  | ok record =>
      have finish {middle : S} (follows : Follows now middle)
          (announced : Announced world serial record middle) :
          world.Keeps (ExceptT.run (do
            modify (·.withTracker serial (·.refreshed record))
            let sample ← ping record.address false
            pure sample.roundTrip)) post middle := by
        obtain ⟨accepted, refreshed⟩ := refreshes middle record follows announced
        rw [keeps_run_bind, keeps_run_modify]
        refine ⟨accepted, ?_⟩
        simp only [keeps_run_bind]
        refine steady.keeps (readOnly_ping _) fun result after further => ?_
        have reached := steady.trans _ _ _ refreshed further
        cases result with
        | ok sample => exact holds _ after reached
        | error failure => exact holds _ after reached
      refine keeps_run_ite (fun _ => ?_) fun same => ?_
      · rw [keeps_run_bind, keeps_run_perform]
        refine ⟨steady.admits _ told, fun _ after answer => ?_⟩
        exact finish (steady.trans _ _ _ follows (steady.answers _ _ _ _ answer))
          (Or.inr ⟨_, _, _, answer⟩)
      · exact finish follows (Or.inl (not_not.mp (mt bne_iff_ne.mpr same)))

theorem keeps_pingOnce (steady : world.Steady Follows)
    (refreshes : ∀ middle record, Follows now middle → Announced world serial record middle →
      let refreshed := (world.look middle).withTracker serial (·.refreshed record)
      world.Accepts refreshed middle ∧ Follows now (world.leave middle refreshed))
    {post : Except Failure Binary64 → S → Prop}
    (counts : ∀ outcome middle, Follows now middle →
      let counted := (world.look middle).withTracker serial (·.change (.pinged outcome))
      world.Accepts counted middle ∧ post outcome (world.leave middle counted)) :
    world.Keeps (pingOnce serial).run post now := by
  change world.Keeps ((probe serial).run >>= _) _ now
  rw [keeps_bind]
  refine keeps_probe steady refreshes fun outcome probed follows => ?_
  rw [keeps_bind, keeps_modify]
  have counted := counts outcome probed follows
  cases outcome with
  | ok roundTrip => exact counted
  | error failure => exact counted

end Overlay.Node
