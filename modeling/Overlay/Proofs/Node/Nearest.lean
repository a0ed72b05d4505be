import Overlay.Node.Neighbors
import Overlay.Proofs.Distance

/-!
The nearest neighbor.

The neighbors of a node are listed from near to far, so the first one of them that was measured is
the nearest, and the distance of a node to its neighbors can be read off that list
(`nearestDistance_eq`).
-/

set_option autoImplicit false

namespace Overlay.Node

open Distance

/-- The distances of the neighbors tracked now. -/
def neighborDistances (node : Node) : List Distance :=
  node.neighborTrackers.map (·.distance node.settings)

section Nearest

variable (node : Node)

theorem sortedNeighbors_perm :
    (node.sortedNeighbors.map (·.2)).Perm node.neighborDistances := by
  have same := (List.mergeSort_perm (node.neighborTrackers.map fun tracker =>
    (tracker.record, tracker.distance node.settings)) fun left right =>
      decide (left.2 ≤ right.2)).map Prod.snd
  rwa [List.map_map] at same

theorem sortedNeighbors_pairwise : (node.sortedNeighbors.map (·.2)).Pairwise (· ≤ ·) :=
  List.pairwise_map.mpr (pairwise_mergeSort Prod.snd _)

/-- The neighbors on probation come first, those out of reach last. -/
theorem sortedNeighbors_grouped :
    Grouped node.neighborDistances (node.sortedNeighbors.map (·.2)) :=
  grouped_of_sorted node.sortedNeighbors_perm node.sortedNeighbors_pairwise

theorem nearestDistance_eq : node.nearestDistance =
    ((node.sortedNeighbors.map (·.2)).find? (·.isMeasured)).getD .unreachable := by
  have least := least?_eq_head? (node.sortedNeighbors_perm.filter (·.isMeasured))
    (node.sortedNeighbors_pairwise.filter _)
  rw [nearestDistance, ← List.head?_filter, ← least]
  rfl

theorem nearestDistance_eq_unreachable : node.nearestDistance = .unreachable ↔
    ∀ neighbor ∈ node.sortedNeighbors, ¬ neighbor.2.isMeasured := by
  rw [nearestDistance_eq]
  cases found : (node.sortedNeighbors.map (·.2)).find? (·.isMeasured) with
  | none =>
      rw [List.find?_map, Option.map_eq_none_iff, List.find?_eq_none] at found
      exact iff_of_true rfl found
  | some distance =>
      have measured := List.find?_some found
      obtain ⟨neighbor, member, rfl⟩ := List.mem_map.mp (List.mem_of_find?_eq_some found)
      refine iff_of_false ?_ fun none => none neighbor member measured
      intro lost
      rw [Option.getD_some] at lost
      rw [lost] at measured
      cases measured

end Nearest

/-- Distances are in a linear order that sets the two ends apart, sorting them has one outcome, and
the proper ones can be read as extended reals in that order. So the neighbors of a node stand in
three groups, and the nearest distance is that of the first measured one, if there is one. -/
theorem distances_linear :
    Linear ∧
      (∀ distances : List Distance, Grouped distances (ascending distances) ∧
        ∀ sorted : List Distance, sorted.Perm distances → sorted.Pairwise (· ≤ ·) →
          sorted = ascending distances) ∧
      Embedded ∧
      ∀ node : Node,
        Grouped node.neighborDistances (node.sortedNeighbors.map (·.2)) ∧
        node.nearestDistance =
          ((node.sortedNeighbors.map (·.2)).find? (·.isMeasured)).getD .unreachable ∧
        (node.nearestDistance = .unreachable ↔
          ∀ neighbor ∈ node.sortedNeighbors, ¬ neighbor.2.isMeasured) := by
  refine ⟨linear, fun distances => ⟨?_, fun sorted same ordered => ?_⟩, embedded, fun node => ?_⟩
  · exact grouped_of_sorted (ascending_perm distances) (ascending_pairwise distances)
  · exact eq_of_sorted (same.trans (ascending_perm distances).symm) ordered
      (ascending_pairwise distances)
  · exact ⟨node.sortedNeighbors_grouped, node.nearestDistance_eq,
      node.nearestDistance_eq_unreachable⟩

end Overlay.Node
