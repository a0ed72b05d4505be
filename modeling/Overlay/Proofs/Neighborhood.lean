import Mathlib.Data.List.Nodup
import Overlay.Neighborhood

/-!
What the review of a maintenance pass decides.

Out of reach is beyond every measured distance, and what is not known yet comes before all of them.
From the far end the neighbors therefore stand in three groups, and a review that works from there
drops the first group, takes from the second, and never comes to the third (`review_eq`).
-/

set_option autoImplicit false

namespace Overlay

theorem Binary64.orderKey_lt (number : Binary64) : number.orderKey < UInt64.size := by
  have small := number.bits.toNat_lt
  rw [orderKey]
  split
  · rw [UInt64.size]
    omega
  · next positive =>
      have below : number.bits.toNat < 2 ^ 63 := by
        simpa [isNegative, UInt64.le_iff_toNat_le] using positive
      change 2 ^ 63 + number.bits.toNat < UInt64.size
      rw [UInt64.size]
      omega

namespace Distance

variable {near far : Distance}

theorem le_trans {middle : Distance} (first : near ≤ middle) (second : middle ≤ far) : near ≤ far :=
  Nat.le_trans first second

theorem le_total (left right : Distance) : left ≤ right ∨ right ≤ left := Nat.le_total _ _

/-- Items sorted by a distance stand from near to far. -/
theorem pairwise_mergeSort {α : Type} (key : α → Distance) (items : List α) :
    (items.mergeSort fun left right => decide (key left ≤ key right)).Pairwise
      fun left right => key left ≤ key right := by
  refine (List.pairwise_mergeSort (fun _ _ _ first second => ?_) (fun left right => ?_) items).imp
    of_decide_eq_true
  · exact decide_eq_true (le_trans (of_decide_eq_true first) (of_decide_eq_true second))
  · rw [Bool.or_eq_true, decide_eq_true_iff, decide_eq_true_iff]
    exact le_total (key left) (key right)

theorem isUnreachable_of_le (ordered : near ≤ far) (lost : near.isUnreachable) :
    far.isUnreachable := by
  cases near with
  | unknown => cases lost
  | millis value => cases lost
  | unreachable =>
      cases far with
      | unknown => exact absurd ordered (by decide)
      | millis value =>
          have below := value.orderKey_lt
          change UInt64.size + 1 ≤ value.orderKey + 1 at ordered
          omega
      | unreachable => rfl

theorem isUnknown_of_le (ordered : near ≤ far) (fresh : far.isUnknown) : near.isUnknown := by
  cases far with
  | unknown =>
      cases near with
      | unknown => rfl
      | millis value => exact absurd ordered (Nat.not_succ_le_zero _)
      | unreachable => exact absurd ordered (by decide)
  | millis value => cases fresh
  | unreachable => cases fresh

theorem isMeasured_eq (distance : Distance) :
    distance.isMeasured = (!distance.isUnknown && !distance.isUnreachable) := by
  cases distance <;> rfl

theorem isUnreachable_iff {distance : Distance} :
    distance.isUnreachable ↔ distance = .unreachable := by
  cases distance <;> simp [isUnreachable]

end Distance

namespace Neighborhood

section Prefix

variable {α : Type} {holds : α → Bool} {items : List α}

/-- What holds of the items of a list up to some place only is true of its first items. -/
theorem takeWhile_eq_filter (first : items.Pairwise fun left right => holds right → holds left) :
    items.takeWhile holds = items.filter holds := by
  induction items with
  | nil => rfl
  | cons head rest ih =>
      obtain ⟨before, sorted⟩ := List.pairwise_cons.mp first
      by_cases here : holds head
      · rw [List.takeWhile_cons_of_pos here, List.filter_cons_of_pos here, ih sorted]
      · rw [List.takeWhile_cons_of_neg here, List.filter_cons_of_neg here]
        exact (List.filter_eq_nil_iff.mpr fun item later held => here (before item later held)).symm

theorem dropWhile_eq_filter (first : items.Pairwise fun left right => holds right → holds left) :
    items.dropWhile holds = items.filter fun item => !holds item := by
  induction items with
  | nil => rfl
  | cons head rest ih =>
      obtain ⟨before, sorted⟩ := List.pairwise_cons.mp first
      by_cases here : holds head
      · rw [List.dropWhile_cons_of_pos here, ih sorted,
          List.filter_cons_of_neg (by simpa using here)]
      · rw [List.dropWhile_cons_of_neg here, eq_comm, List.filter_eq_self]
        intro item member
        rcases List.mem_cons.mp member with rfl | later
        · simpa using here
        · simpa using fun held => here (before item later held)

theorem filter_append_filter (first : items.Pairwise fun left right => holds right → holds left) :
    items.filter holds ++ items.filter (fun item => !holds item) = items := by
  rw [← takeWhile_eq_filter first, ← dropWhile_eq_filter first]
  exact List.takeWhile_append_dropWhile

end Prefix

/-- Neighbors stand with the farthest first. -/
def Descending (neighbors : List Ranked) : Prop :=
  neighbors.Pairwise fun left right => right.2 ≤ left.2

variable {limit : Nat} {neighbors : List Ranked}

theorem rank_perm (neighbors : List Ranked) : (rank neighbors).Perm neighbors :=
  List.mergeSort_perm neighbors _

theorem reverse_rank_descending (neighbors : List Ranked) :
    Descending (rank neighbors).reverse :=
  List.pairwise_reverse.mpr (Distance.pairwise_mergeSort Prod.snd neighbors)

/-- The measured neighbors, the farthest first. -/
def measured (neighbors : List Ranked) : List Ranked :=
  (rank neighbors).reverse.filter (·.2.isMeasured)

theorem measured_descending (neighbors : List Ranked) : Descending (measured neighbors) :=
  (reverse_rank_descending neighbors).filter _

theorem mem_measured {neighbor : Ranked} :
    neighbor ∈ measured neighbors ↔ neighbor ∈ neighbors ∧ neighbor.2.isMeasured := by
  rw [measured, List.mem_filter, List.mem_reverse, (rank_perm neighbors).mem_iff]

theorem length_measured (neighbors : List Ranked) :
    (measured neighbors).length = neighbors.countP (·.2.isMeasured) := by
  rw [measured, ← List.countP_eq_length_filter, List.countP_reverse,
    (rank_perm neighbors).countP_eq]

/-- The neighbors that are not out of reach, the farthest first. -/
def within (neighbors : List Ranked) : List Ranked :=
  (rank neighbors).reverse.filter fun neighbor => !neighbor.2.isUnreachable

theorem countP_within (neighbors : List Ranked) :
    (within neighbors).countP (·.2.isUnknown) = neighbors.countP (·.2.isUnknown) := by
  rw [within, List.countP_filter, List.countP_reverse, (rank_perm neighbors).countP_eq]
  refine List.countP_congr fun neighbor _ => ?_
  cases neighbor.2 <;> simp [Distance.isUnknown, Distance.isUnreachable]

theorem filter_within (neighbors : List Ranked) :
    (within neighbors).filter (fun neighbor => !neighbor.2.isUnknown) = measured neighbors := by
  rw [within, List.filter_filter, measured]
  exact List.filter_congr fun neighbor _ => neighbor.2.isMeasured_eq.symm

/-- Those on probation come last of the neighbors that are not out of reach. -/
theorem within_eq (neighbors : List Ranked) : ∃ probation,
    within neighbors = measured neighbors ++ probation := by
  have sorted : (within neighbors).Pairwise fun left right =>
      !right.2.isUnknown → !left.2.isUnknown := by
    refine ((reverse_rank_descending neighbors).filter _).imp fun ordered => ?_
    simpa using mt (Distance.isUnknown_of_le ordered)
  rw [← filter_within, ← takeWhile_eq_filter sorted]
  exact ⟨_, (List.takeWhile_append_dropWhile).symm⟩

theorem length_eq_unknown_add (neighbors : List Ranked) : neighbors.length =
    neighbors.countP (·.2.isUnknown) +
      (neighbors.filter fun neighbor => !neighbor.2.isUnknown).length := by
  rw [← List.countP_eq_length_filter]
  simpa using List.length_eq_countP_add_countP (l := neighbors) (·.2.isUnknown)

theorem length_within (neighbors : List Ranked) : (within neighbors).length =
    neighbors.countP (·.2.isUnknown) + (measured neighbors).length := by
  rw [← countP_within, ← filter_within, ← length_eq_unknown_add]

/-- What a review decides, group by group. -/
theorem review_eq (limit : Nat) (neighbors : List Ranked) : review limit neighbors =
    { removed := ((rank neighbors).reverse.filter (·.2.isUnreachable)).map (·.1)
      evicted := ((measured neighbors).take ((measured neighbors).length - limit)).map (·.1)
      candidates := neighbors.countP (·.2.isUnknown) } := by
  have sorted : (rank neighbors).reverse.Pairwise fun left right =>
      right.2.isUnreachable → left.2.isUnreachable :=
    (reverse_rank_descending neighbors).imp fun ordered => Distance.isUnreachable_of_le ordered
  obtain ⟨probation, split⟩ := within_eq neighbors
  have spare : (within neighbors).length - neighbors.countP (·.2.isUnknown) - limit =
      (measured neighbors).length - limit := by
    rw [length_within, Nat.add_sub_cancel_left]
  rw [review, takeWhile_eq_filter sorted, dropWhile_eq_filter sorted]
  change Review.mk _ (((within neighbors).take ((within neighbors).length -
    (within neighbors).countP (·.2.isUnknown) - limit)).map (·.1))
    ((within neighbors).countP (·.2.isUnknown)) = _
  rw [countP_within, spare, split, List.take_append_of_le_length (Nat.sub_le _ _)]

/-- The names of all neighbors that a review drops. -/
def Review.dropped (review : Review) : List PeerId := review.removed ++ review.evicted

theorem Review.mem_dropped {review : Review} {id : PeerId} :
    id ∈ review.dropped ↔ id ∈ review.removed ∨ id ∈ review.evicted := List.mem_append

theorem mem_removed {id : PeerId} :
    id ∈ (review limit neighbors).removed ↔ (id, Distance.unreachable) ∈ neighbors := by
  rw [review_eq]
  simp [(rank_perm neighbors).mem_iff, Distance.isUnreachable_iff]

theorem mem_evicted {id : PeerId} (evicted : id ∈ (review limit neighbors).evicted) :
    ∃ distance, (id, distance) ∈
      (measured neighbors).take ((measured neighbors).length - limit) := by
  rw [review_eq] at evicted
  obtain ⟨⟨_, distance⟩, taken, rfl⟩ := List.mem_map.mp evicted
  exact ⟨distance, taken⟩

/-- Just as many measured neighbors are evicted as there are beyond the limit. -/
theorem length_evicted : (review limit neighbors).evicted.length =
    neighbors.countP (·.2.isMeasured) - limit := by
  rw [review_eq, List.length_map, List.length_take, length_measured]
  omega

section Distinct

variable (distinct : (neighbors.map Prod.fst).Nodup)
include distinct

theorem distance_unique {id : PeerId} {first second : Distance} (one : (id, first) ∈ neighbors)
    (other : (id, second) ∈ neighbors) : first = second :=
  congrArg Prod.snd (List.inj_on_of_nodup_map distinct one other rfl)

theorem evicted_nodup : (review limit neighbors).evicted.Nodup := by
  rw [review_eq]
  have part : ((measured neighbors).take ((measured neighbors).length - limit)).Sublist
      (rank neighbors).reverse := (List.take_sublist _ _).trans List.filter_sublist
  refine List.Nodup.sublist (part.map _) ?_
  rw [List.map_reverse, List.nodup_reverse]
  exact ((rank_perm neighbors).map _).nodup_iff.mpr distinct

theorem isMeasured_of_evicted {id : PeerId} {distance : Distance}
    (neighbor : (id, distance) ∈ neighbors) (evicted : id ∈ (review limit neighbors).evicted) :
    distance.isMeasured := by
  obtain ⟨found, taken⟩ := mem_evicted evicted
  obtain ⟨there, isMeasured⟩ := mem_measured.mp (List.mem_of_mem_take taken)
  rwa [distance_unique distinct neighbor there]

/-- No measured neighbor that stays is farther than one that is evicted. -/
theorem evicted_farthest {gone kept : PeerId} {far near : Distance}
    (leaves : (gone, far) ∈ neighbors) (evicted : gone ∈ (review limit neighbors).evicted)
    (stays : (kept, near) ∈ neighbors) (isMeasured : near.isMeasured)
    (spared : kept ∉ (review limit neighbors).evicted) : near ≤ far := by
  obtain ⟨found, taken⟩ := mem_evicted evicted
  obtain ⟨there, _⟩ := mem_measured.mp (List.mem_of_mem_take taken)
  rw [distance_unique distinct leaves there]
  have sorted := measured_descending neighbors
  have member : (kept, near) ∈ measured neighbors := mem_measured.mpr ⟨stays, isMeasured⟩
  rw [← List.take_append_drop ((measured neighbors).length - limit) (measured neighbors)]
    at sorted member
  refine (List.pairwise_append.mp sorted).2.2 _ taken (kept, near) ?_
  refine (List.mem_append.mp member).resolve_left fun also => spared ?_
  rw [review_eq]
  exact List.mem_map_of_mem also

/-- A review spares as many measured neighbors as the limit admits, not more. -/
theorem length_spared {spared : List Ranked} (part : spared.Sublist neighbors)
    (kept : ∀ neighbor ∈ spared,
      neighbor.2.isMeasured ∧ neighbor.1 ∉ (review limit neighbors).evicted) :
    spared.length ≤ limit := by
  have apart : (spared.map Prod.fst ++ (review limit neighbors).evicted).Nodup := by
    refine List.nodup_append.mpr ⟨distinct.sublist (part.map _), evicted_nodup distinct, ?_⟩
    rintro id stays _ evicted rfl
    obtain ⟨neighbor, member, rfl⟩ := List.mem_map.mp stays
    exact (kept neighbor member).2 evicted
  have known : spared.map Prod.fst ++ (review limit neighbors).evicted ⊆
      (measured neighbors).map Prod.fst := by
    refine List.append_subset.mpr ⟨fun id stays => ?_, fun id evicted => ?_⟩
    · obtain ⟨neighbor, member, rfl⟩ := List.mem_map.mp stays
      exact List.mem_map_of_mem (mem_measured.mpr ⟨part.subset member, (kept _ member).1⟩)
    · obtain ⟨distance, taken⟩ := mem_evicted evicted
      exact List.mem_map_of_mem (f := Prod.fst) (List.mem_of_mem_take taken)
  have bound := apart.length_le_of_subset known
  rw [List.length_append, List.length_map, List.length_map, length_evicted,
    length_measured] at bound
  omega

/-- At most as many neighbors stay as the limit admits, and those on probation. -/
theorem length_kept : (neighbors.filter fun neighbor =>
      !(review limit neighbors).dropped.contains neighbor.1).length ≤
    limit + (review limit neighbors).candidates := by
  generalize same : neighbors.filter (fun neighbor =>
    !(review limit neighbors).dropped.contains neighbor.1) = kept
  have part : kept.Sublist neighbors := same ▸ List.filter_sublist
  have probation : kept.countP (·.2.isUnknown) ≤ (review limit neighbors).candidates := by
    rw [review_eq]
    exact part.countP_le
  have spared : (kept.filter fun neighbor => !neighbor.2.isUnknown).length ≤ limit := by
    refine length_spared distinct (List.filter_sublist.trans part) fun neighbor member => ?_
    obtain ⟨stays, known⟩ := List.mem_filter.mp member
    rw [← same, List.mem_filter, Review.dropped, Bool.not_eq_true', List.contains_eq_mem,
      decide_eq_false_iff_not, List.mem_append, not_or, mem_removed] at stays
    refine ⟨?_, stays.2.2⟩
    have reached : ¬ neighbor.2.isUnreachable := fun lost =>
      stays.2.1 (Distance.isUnreachable_iff.mp lost ▸ stays.1)
    rw [Distance.isMeasured_eq, known]
    simpa using reached
  rw [length_eq_unknown_add kept]
  omega

end Distinct

end Neighborhood

end Overlay
