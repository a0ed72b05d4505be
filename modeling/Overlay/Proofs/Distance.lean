import Mathlib.Data.List.Sort
import Overlay.Proofs.Binary64.Extended
import Overlay.Proofs.Neighborhood

/-!
The order of distances.

A comparison of distances looks at the kinds first, and of two numbers of milliseconds at the total
order of their bits (`compare_eq_ranked`). That is a linear order in which no two distances share a
place (`linear`). There is thus one way only to sort a list of distances: those that are not known,
then the milliseconds, then those out of reach (`grouped_of_sorted`). Where milliseconds are finite,
the order goes along with the one of the extended reals (`extended_le`).
-/

set_option autoImplicit false

namespace Overlay

namespace Distance

variable {left right middle distance : Distance}

section Order

/-- The place of the kind of a distance. -/
def rank : Distance → ℕ
  | .unknown => 0
  | .millis _ => 1
  | .unreachable => 2

/-- The comparison by kinds, and of milliseconds by the total order of their bits. -/
def ranked : Distance → Distance → Ordering
  | .millis left, .millis right => compare left.signed right.signed
  | left, right => compare left.rank right.rank

theorem compare_eq_ranked (left right : Distance) : compare left right = ranked left right := by
  change compare left.orderKey right.orderKey = ranked left right
  cases left with
  | unknown =>
      cases right with
      | unknown => rfl
      | millis | unreachable => exact compare_lt_iff_lt.mpr (Nat.succ_pos _)
  | millis leftValue =>
      cases right with
      | unknown => exact compare_gt_iff_gt.mpr (Nat.succ_pos _)
      | millis rightValue =>
          have keyLeft := leftValue.orderKey_eq_signed
          have keyRight := rightValue.orderKey_eq_signed
          rcases lt_trichotomy leftValue.signed rightValue.signed with below | same | above
          · have keys : leftValue.orderKey + 1 < rightValue.orderKey + 1 := by omega
            exact (compare_lt_iff_lt.mpr keys).trans (compare_lt_iff_lt.mpr below).symm
          · have keys : leftValue.orderKey + 1 = rightValue.orderKey + 1 := by omega
            exact (compare_eq_iff_eq.mpr keys).trans (compare_eq_iff_eq.mpr same).symm
          · have keys : rightValue.orderKey + 1 < leftValue.orderKey + 1 := by omega
            exact (compare_gt_iff_gt.mpr keys).trans (compare_gt_iff_gt.mpr above).symm
      | unreachable => exact compare_lt_iff_lt.mpr (Nat.succ_lt_succ leftValue.orderKey_lt)
  | unreachable =>
      cases right with
      | unknown => exact compare_gt_iff_gt.mpr (Nat.succ_pos _)
      | millis rightValue =>
          exact compare_gt_iff_gt.mpr (Nat.succ_lt_succ rightValue.orderKey_lt)
      | unreachable => rfl

/-- No two distances stand in one place. -/
theorem orderKey_inj (same : left.orderKey = right.orderKey) : left = right := by
  have equal : ranked left right = .eq :=
    (compare_eq_ranked left right).symm.trans (compare_eq_iff_eq.mpr same)
  cases left with
  | unknown => cases right with
    | unknown => rfl
    | millis | unreachable => cases equal
  | millis leftValue => cases right with
    | millis rightValue =>
        exact congrArg millis (Binary64.orderKey_inj (Nat.succ_injective same))
    | unknown | unreachable => cases equal
  | unreachable => cases right with
    | unreachable => rfl
    | unknown | millis => cases equal

theorem le_antisymm (below : left ≤ right) (above : right ≤ left) : left = right :=
  orderKey_inj (Nat.le_antisymm below above)

theorem le_iff_compare : left ≤ right ↔ compare left right ≠ .gt :=
  (Nat.compare_ne_gt (a := left.orderKey) (b := right.orderKey)).symm

theorem lt_iff_compare : left < right ↔ compare left right = .lt :=
  (Nat.compare_eq_lt (a := left.orderKey) (b := right.orderKey)).symm

theorem compare_eq_iff : compare left right = .eq ↔ left = right := by
  have keys : compare left right = .eq ↔ left.orderKey = right.orderKey := Nat.compare_eq_eq
  refine keys.trans ⟨orderKey_inj, ?_⟩
  rintro rfl
  rfl

/-- What makes a comparison a linear order of all distances, of which the other ways to compare two
of them are parts. -/
structure Linear : Prop where
  compared : ∀ left right : Distance, compare left right = ranked left right
  refl : ∀ distance : Distance, compare distance distance = .eq
  antisymm : ∀ left right : Distance, compare left right ≠ .gt → compare right left ≠ .gt →
    left == right
  trans : ∀ left middle right : Distance, compare left middle ≠ .gt → compare middle right ≠ .gt →
    compare left right ≠ .gt
  total : ∀ left right : Distance, compare left right ≠ .gt ∨ compare right left ≠ .gt
  swapped : ∀ left right : Distance, (compare left right).swap = compare right left
  equal : ∀ left right : Distance, left == right ↔ compare left right = .eq
  less : ∀ left right : Distance, left < right ↔ compare left right = .lt
  lessEqual : ∀ left right : Distance, left ≤ right ↔ compare left right ≠ .gt

theorem linear : Linear where
  compared := compare_eq_ranked
  refl _ := compare_eq_iff.mpr rfl
  antisymm _ _ below above :=
    beq_iff_eq.mpr (le_antisymm (le_iff_compare.mpr below) (le_iff_compare.mpr above))
  trans _ _ _ first second :=
    le_iff_compare.mp (le_trans (le_iff_compare.mpr first) (le_iff_compare.mpr second))
  total left right := (le_total left right).imp le_iff_compare.mp le_iff_compare.mp
  swapped _ _ := Nat.compare_swap _ _
  equal _ _ := beq_iff_eq.trans compare_eq_iff.symm
  less _ _ := lt_iff_compare
  lessEqual _ _ := le_iff_compare

end Order

section Sorting

variable {distances sorted : List Distance}

/-- The distances from near to far; equal ones keep their order. -/
def ascending (distances : List Distance) : List Distance :=
  distances.mergeSort fun left right => decide (left ≤ right)

/-- A list in three groups: what is not known, milliseconds from few to many, and what is out of
reach. -/
structure Grouped (distances sorted : List Distance) : Prop where
  perm : sorted.Perm distances
  groups : ∃ values : List Binary64,
    sorted = List.replicate (distances.count .unknown) .unknown ++ values.map .millis ++
      List.replicate (distances.count .unreachable) .unreachable ∧
    values.Pairwise fun left right => left.signed ≤ right.signed

theorem ascending_perm (distances : List Distance) : (ascending distances).Perm distances :=
  List.mergeSort_perm distances _

theorem ascending_pairwise (distances : List Distance) :
    (ascending distances).Pairwise (· ≤ ·) := pairwise_mergeSort id distances

/-- There is one way only to sort. -/
theorem eq_of_sorted {other : List Distance} (same : sorted.Perm other)
    (ordered : sorted.Pairwise (· ≤ ·)) (otherOrdered : other.Pairwise (· ≤ ·)) : sorted = other :=
  same.eq_of_pairwise (fun _ _ _ _ => le_antisymm) ordered otherOrdered

theorem exists_millis (distances : List Distance) : ∃ values : List Binary64,
    distances.filter (·.isMeasured) = values.map .millis := by
  induction distances with
  | nil => exact ⟨[], rfl⟩
  | cons first rest ih =>
      obtain ⟨values, same⟩ := ih
      cases first with
      | unknown => exact ⟨values, same⟩
      | millis value => exact ⟨value :: values, congrArg (millis value :: ·) same⟩
      | unreachable => exact ⟨values, same⟩

theorem millis_le_iff {left right : Binary64} :
    millis left ≤ millis right ↔ left.signed ≤ right.signed := by
  have keyLeft := left.orderKey_eq_signed
  have keyRight := right.orderKey_eq_signed
  change left.orderKey + 1 ≤ right.orderKey + 1 ↔ _
  omega

theorem filter_isUnknown (distances : List Distance) :
    distances.filter (·.isUnknown) =
      List.replicate (distances.count .unknown) .unknown := by
  rw [← List.filter_beq]
  refine List.filter_congr fun distance _ => ?_
  cases distance <;> rfl

theorem filter_isUnreachable (distances : List Distance) :
    distances.filter (·.isUnreachable) =
      List.replicate (distances.count .unreachable) .unreachable := by
  rw [← List.filter_beq]
  refine List.filter_congr fun distance _ => ?_
  cases distance <;> rfl

/-- A sorted list is the list of its three groups. -/
theorem filters_of_sorted (ordered : sorted.Pairwise (· ≤ ·)) :
    sorted = sorted.filter (·.isUnknown) ++ sorted.filter (·.isMeasured) ++
      sorted.filter (·.isUnreachable) := by
  have fresh : sorted.Pairwise fun left right => right.isUnknown → left.isUnknown :=
    ordered.imp isUnknown_of_le
  have known : (sorted.filter fun distance => !distance.isUnknown).Pairwise fun left right =>
      !right.isUnreachable → !left.isUnreachable := by
    refine (ordered.filter _).imp fun below => ?_
    simpa using mt (isUnreachable_of_le below)
  have parts := Neighborhood.filter_append_filter known
  have measured : (sorted.filter fun distance => !distance.isUnknown).filter
      (fun distance => !distance.isUnreachable) = sorted.filter (·.isMeasured) := by
    rw [List.filter_filter]
    refine List.filter_congr fun distance _ => ?_
    cases distance <;> rfl
  have lost : (sorted.filter fun distance => !distance.isUnknown).filter
      (fun distance => !!distance.isUnreachable) = sorted.filter (·.isUnreachable) := by
    rw [List.filter_filter]
    refine List.filter_congr fun distance _ => ?_
    cases distance <;> rfl
  rw [measured, lost] at parts
  rw [List.append_assoc, parts, Neighborhood.filter_append_filter fresh]

theorem grouped_of_sorted (same : sorted.Perm distances) (ordered : sorted.Pairwise (· ≤ ·)) :
    Grouped distances sorted := by
  obtain ⟨values, measured⟩ := exists_millis sorted
  refine ⟨same, values, ?_, ?_⟩
  · calc
      sorted = _ := filters_of_sorted ordered
      _ = _ := by
          rw [filter_isUnknown, measured, filter_isUnreachable, same.count_eq, same.count_eq]
  · have between := ordered.filter (·.isMeasured)
    rw [measured, List.pairwise_map] at between
    exact between.imp millis_le_iff.mp

/-- The least distance is the first one of them in order. -/
theorem foldl_least (first : Distance) (rest : List Distance) :
    let least := rest.foldl (fun best next => if next < best then next else best) first
    least ∈ first :: rest ∧ ∀ distance ∈ first :: rest, least ≤ distance := by
  induction rest generalizing first with
  | nil => exact ⟨List.mem_singleton_self first, List.forall_mem_singleton.mpr (Nat.le_refl _)⟩
  | cons next rest ih =>
      rw [List.foldl_cons]
      split
      · next below =>
          obtain ⟨member, least⟩ := ih next
          refine ⟨List.mem_cons_of_mem first member, List.forall_mem_cons.mpr ⟨?_, least⟩⟩
          exact le_trans (least next List.mem_cons_self) (Nat.le_of_lt below)
      · next above =>
          obtain ⟨member, least⟩ := ih first
          obtain ⟨here, behind⟩ := List.forall_mem_cons.mp least
          refine ⟨?_, List.forall_mem_cons.mpr ⟨here, List.forall_mem_cons.mpr ⟨?_, behind⟩⟩⟩
          · have among := List.mem_cons.mp member
            exact List.mem_cons.mpr (among.imp_right (List.mem_cons_of_mem next))
          · exact le_trans here (Nat.le_of_not_lt above)

theorem least?_eq_head? (same : sorted.Perm distances) (ordered : sorted.Pairwise (· ≤ ·)) :
    least? distances = sorted.head? := by
  cases distances with
  | nil => rw [same.eq_nil]; rfl
  | cons first rest =>
      obtain ⟨member, least⟩ := foldl_least first rest
      cases sorted with
      | nil => exact absurd same.symm.eq_nil (List.cons_ne_nil first rest)
      | cons head tail =>
          have before := (List.pairwise_cons.mp ordered).1
          refine congrArg some (le_antisymm (least head (same.subset List.mem_cons_self)) ?_)
          rcases List.mem_cons.mp (same.mem_iff.mpr member) with here | later
          · exact Nat.le_of_eq (congrArg orderKey here.symm)
          · exact before _ later

end Sorting

section Conversion

variable {value : Binary64}

/-- A distance that holds no other double than a finite one. -/
def Proper : Distance → Prop
  | .millis value => value.isFinite
  | _ => True

theorem ofBinary64_of_isFinite (finite : value.isFinite) : ofBinary64 value = .millis value := by
  rw [ofBinary64, Binary64.not_isNaN_of_isFinite finite, if_neg Bool.false_ne_true, if_pos finite]

theorem ofBinary64_toBinary64 (proper : distance.Proper) :
    ofBinary64 distance.toBinary64 = distance := by
  cases distance with
  | unknown | unreachable => decide
  | millis value => exact ofBinary64_of_isFinite proper

theorem ofBinary64_proper (number : Binary64) : (ofBinary64 number).Proper := by
  rw [ofBinary64]
  split
  · trivial
  · split
    · next finite => exact finite
    · split <;> trivial

theorem not_isNaN_toBinary64 (proper : distance.Proper) : distance.toBinary64.isNaN = false := by
  cases distance with
  | unknown | unreachable => decide
  | millis value => exact Binary64.not_isNaN_of_isFinite proper

/-- As plain numbers, distances stand in their order. -/
theorem not_toBinary64_lt (properLeft : left.Proper) (properRight : right.Proper)
    (below : left ≤ right) : right.toBinary64.lt left.toBinary64 = false := by
  cases left with
  | unknown => exact Binary64.not_lt_negativeInfinity _
  | millis leftValue =>
      cases right with
      | unknown => exact absurd below (Nat.not_succ_le_zero _)
      | millis rightValue =>
          refine Bool.eq_false_iff.mpr fun above => ?_
          have keys := Binary64.orderKey_lt_of_lt properRight properLeft above
          exact absurd (Nat.succ_le_succ_iff.mp below) (Nat.not_le.mpr keys)
      | unreachable => exact Binary64.not_infinity_lt _
  | unreachable =>
      have last := isUnreachable_iff.mp (isUnreachable_of_le below rfl)
      rw [last]
      exact Binary64.not_infinity_lt _

theorem extended_le (properLeft : left.Proper) (properRight : right.Proper)
    (below : left ≤ right) : left.toBinary64.extended ≤ right.toBinary64.extended := by
  cases left with
  | unknown => exact bot_le
  | millis leftValue =>
      cases right with
      | unknown => exact absurd below (Nat.not_succ_le_zero _)
      | millis rightValue =>
          have numbers := not_toBinary64_lt properLeft properRight below
          have values : leftValue.value ≤ rightValue.value := by
            refine not_lt.mp fun above => ?_
            exact Bool.false_ne_true
              (numbers.symm.trans ((Binary64.lt_iff_value_lt properRight properLeft).mpr above))
          change leftValue.extended ≤ rightValue.extended
          rw [leftValue.extended_of_isFinite properLeft,
            rightValue.extended_of_isFinite properRight]
          exact EReal.coe_le_coe_iff.mpr values
      | unreachable => exact le_top
  | unreachable =>
      have last := isUnreachable_iff.mp (isUnreachable_of_le below rfl)
      rw [last]

/-- What makes plain numbers a picture of the distances: they tell which distance it was, and they
stand in its order, among the doubles and among the extended reals. -/
structure Embedded : Prop where
  back : ∀ distance : Distance, distance.Proper → ofBinary64 distance.toBinary64 = distance
  proper : ∀ number : Binary64, (ofBinary64 number).Proper
  numbers : ∀ distance : Distance, distance.Proper → distance.toBinary64.isNaN = false
  ordered : ∀ left right : Distance, left.Proper → right.Proper → left ≤ right →
    right.toBinary64.lt left.toBinary64 = false
  extended : ∀ left right : Distance, left.Proper → right.Proper → left ≤ right →
    left.toBinary64.extended ≤ right.toBinary64.extended

theorem embedded : Embedded where
  back _ := ofBinary64_toBinary64
  proper := ofBinary64_proper
  numbers _ := not_isNaN_toBinary64
  ordered _ _ := not_toBinary64_lt
  extended _ _ := extended_le

end Conversion

end Distance

end Overlay
