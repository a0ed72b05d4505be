import Overlay.Node.State

/-!
Engines and trackers of a node, looked up and replaced.
-/

set_option autoImplicit false

namespace Overlay.Node

theorem engine_algorithm (node : Node) (algorithm : Algorithm) :
    (node.engine algorithm).algorithm = algorithm := by
  rw [engine]
  cases found : node.engines.find? (·.algorithm = algorithm) with
  | some engine => simpa using List.find?_some found
  | none => rfl

theorem engine_mem_or_start (node : Node) (algorithm : Algorithm) :
    node.engine algorithm ∈ node.engines ∨ node.engine algorithm =
      Engine.start algorithm node.settings node.record.id node.clock := by
  rw [engine]
  cases found : node.engines.find? (·.algorithm = algorithm) with
  | some engine => exact Or.inl (List.mem_of_find?_eq_some found)
  | none => exact Or.inr rfl

/-- An engine that runs does not depend on the time. -/
theorem engine_of_running {node : Node} {algorithm : Algorithm} (clock : Timestamp)
    (running : ∃ engine ∈ node.engines, engine.algorithm = algorithm) :
    ({ node with clock } : Node).engine algorithm = node.engine algorithm := by
  have found : (node.engines.find? (·.algorithm = algorithm)).isSome := by
    simpa using running
  obtain ⟨engine, found⟩ := Option.isSome_iff_exists.mp found
  rw [Node.engine, Node.engine, found, Option.getD_some, Option.getD_some]

/-- An engine that takes the place of another one is looked up in its place. -/
theorem find?_withEngine (node : Node) (engine : Engine) (algorithm : Algorithm) :
    (node.withEngine engine).engines.find? (·.algorithm = algorithm) =
      (node.engines.find? (·.algorithm = algorithm)).map fun held =>
        if held.algorithm = engine.algorithm then engine else held := by
  have position : ((fun held : Engine => decide (held.algorithm = algorithm)) ∘ fun held =>
      if held.algorithm = engine.algorithm then engine else held) =
      fun held => decide (held.algorithm = algorithm) := by
    funext held
    by_cases replaced : held.algorithm = engine.algorithm
    · simp [replaced]
    · simp [replaced]
  rw [withEngine, List.find?_map, position]

/-- Of the engines that are looked up, at most the one of the same algorithm is replaced. -/
theorem engine_withEngine (node : Node) (engine : Engine) (algorithm : Algorithm) :
    ((node.withEngine engine).engine algorithm = engine ∧ algorithm = engine.algorithm) ∨
      (node.withEngine engine).engine algorithm = node.engine algorithm := by
  simp only [Node.engine, find?_withEngine]
  cases found : node.engines.find? (·.algorithm = algorithm) with
  | none => exact Or.inr rfl
  | some held =>
      have named : held.algorithm = algorithm := by simpa using List.find?_some found
      by_cases replaced : held.algorithm = engine.algorithm
      · refine Or.inl ⟨?_, named.symm.trans replaced⟩
        simp [replaced]
      · refine Or.inr ?_
        simp [replaced]

theorem engine_withEngine_self {node : Node} {engine : Engine}
    (running : ∃ held ∈ node.engines, held.algorithm = engine.algorithm) :
    (node.withEngine engine).engine engine.algorithm = engine := by
  have found : (node.engines.find? (·.algorithm = engine.algorithm)).isSome := by
    simpa using running
  obtain ⟨held, found⟩ := Option.isSome_iff_exists.mp found
  have named : held.algorithm = engine.algorithm := by simpa using List.find?_some found
  rw [Node.engine, find?_withEngine, found, Option.map_some, if_pos named, Option.getD_some]

theorem mem_withEngine {node : Node} {engine held : Engine}
    (member : held ∈ (node.withEngine engine).engines) : held = engine ∨ held ∈ node.engines := by
  obtain ⟨before, there, rfl⟩ := List.mem_map.mp member
  split
  · exact Or.inl rfl
  · exact Or.inr there

/-- An engine is replaced in its place by one of the same algorithm. -/
theorem algorithms_withEngine (node : Node) (engine : Engine) :
    (node.withEngine engine).engines.map (·.algorithm) = node.engines.map (·.algorithm) := by
  rw [withEngine, List.map_map]
  refine List.map_congr_left fun held _ => ?_
  change (if held.algorithm = engine.algorithm then engine else held).algorithm = held.algorithm
  split
  · next same => exact same.symm
  · rfl

theorem tracker_withTracker {node : Node} {serial : Nat} (there : serial < node.trackers.length)
    (change : Tracker → Tracker) :
    (node.withTracker serial change).tracker serial = change (node.tracker serial) := by
  simp only [tracker, withTracker, List.getElem?_modify, List.getElem?_eq_getElem there]
  rfl

theorem tracker_withTracker_of_ne {node : Node} {serial other : Nat} (apart : other ≠ serial)
    (change : Tracker → Tracker) :
    (node.withTracker serial change).tracker other = node.tracker other := by
  have untouched : (node.trackers.modify serial change)[other]? = node.trackers[other]? := by
    simp [Ne.symm apart]
  rw [tracker, withTracker, untouched]
  rfl

theorem mem_withTracker {node : Node} {serial : Nat} {change : Tracker → Tracker}
    {tracker : Tracker} (member : tracker ∈ (node.withTracker serial change).trackers) :
    tracker ∈ node.trackers ∨ ∃ before ∈ node.trackers, tracker = change before := by
  obtain ⟨place, here⟩ := List.mem_iff_getElem?.mp member
  rw [withTracker, List.getElem?_modify] at here
  obtain ⟨before, found, changed⟩ := Option.map_eq_some_iff.mp here
  split at changed
  · exact Or.inr ⟨before, List.mem_of_getElem? found, changed.symm⟩
  · exact Or.inl (changed ▸ List.mem_of_getElem? found)

end Overlay.Node
