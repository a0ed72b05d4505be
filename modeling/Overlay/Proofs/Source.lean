import Overlay.Node.Neighbors
import Overlay.Proofs.Chance
import Overlay.Proofs.Duration

/-!
Sources of random choices: which fractions they give, and that no choice changes the source it is
made with.

A fair source gives fractions of a whole, so a span that is lengthened with it is at most doubled
(`Dice.Fair.jittered_le`). Whatever a node chooses, it goes on with the fractions of the same source
(`KeepsSource`).
-/

set_option autoImplicit false

namespace Overlay

open Binary64

namespace Dice

/-- A fraction of one: not below zero, and below one. -/
structure IsShare (number : Binary64) : Prop where
  notBelow : number.lt zero = false
  below : number.lt one = true

/-- Every fraction that the source may give is one. -/
def Fair (portion : DrawCount → Binary64) : Prop := ∀ count, IsShare (portion count)

variable {number : Binary64} {span : Duration}

theorem IsShare.isFinite (share : IsShare number) : number.isFinite := by
  obtain ⟨notBelow, below⟩ := share
  rw [lt_eq, show zero.unpacked = .zero .positive from rfl] at notBelow
  rw [lt_eq, show one.unpacked = .finite .positive (2 ^ 52) (-52) (by norm_num) from rfl] at below
  rw [isFinite_eq]
  cases unpacked : number.unpacked with
  | zero | finite => rfl
  | notANumber =>
      rw [unpacked] at below
      cases below
  | infinity sign =>
      rw [unpacked] at notBelow below
      cases sign with
      | positive => cases below
      | negative => cases notBelow

theorem IsShare.abs_value_lt (share : IsShare number) : |number.value| < 1 := by
  have finite := share.isFinite
  have nonneg : ¬ number.value < 0 := by
    rw [← value_zero, ← lt_iff_value_lt finite (by decide)]
    exact ne_true_of_eq_false share.notBelow
  have less : number.value < 1 := by
    rw [← value_one, ← lt_iff_value_lt finite (by decide)]
    exact share.below
  rwa [abs_of_nonneg (not_lt.mp nonneg)]

theorem isShare_of_value (finite : number.isFinite) (nonneg : 0 ≤ number.value)
    (less : number.value < 1) : IsShare number where
  notBelow := by
    rw [Bool.eq_false_iff, Ne, lt_iff_value_lt finite (by decide), value_zero]
    exact not_lt.mpr nonneg
  below := by
    rw [lt_iff_value_lt finite (by decide), value_one]
    exact less

/-- A share of a span at most doubles it. -/
theorem IsShare.jittered_le (share : IsShare number) (short : span.nanos < 2 ^ 64 * 1000000) :
    span.jittered number ≤ span + span :=
  Nat.add_le_add_left (Duration.scaled_le short share.isFinite share.abs_value_lt) _

/-- Whole numbers of fifty-three bits over the first one beyond them are shares. -/
theorem isShare_ofNat_div {number : ℕ} (short : number < 2 ^ 53) :
    IsShare (.ofNat number / .ofNat (2 ^ 53)) := by
  have longest : Step (2 ^ 53 - 2) 0 (2 ^ 53 - 1) := by constructor <;> norm_num
  have beyond : Step (2 ^ 53 - 1) 0 (2 ^ 53) := by constructor <;> norm_num
  have largest : Step (2 ^ 53 - 2) (-53) (1 - 2 ^ (-53 : ℤ)) := by constructor <;> norm_num
  have count := measures_ofNat (show number < 2 ^ 64 by omega)
  have most : (Binary64.ofNat number).value ≤ 2 ^ 53 - 1 := by
    refine longest.value_le (rounds_ofNat (by omega)) count.finite ?_
    rw [abs_of_nonneg (Nat.cast_nonneg _), le_sub_iff_add_le]
    exact_mod_cast short
  have whole := measures_ofNat (show 2 ^ 53 < 2 ^ 64 by norm_num)
  have same : (Binary64.ofNat (2 ^ 53)).value = 2 ^ 53 := by
    have near := (rounds_ofNat (show 2 ^ 53 < 2 ^ 64 by norm_num)).nearest
      ((isFinite_eq _).symm.trans whole.finite)
    rw [Nat.cast_pow, Nat.cast_ofNat, abs_of_nonneg (by positivity)] at near
    rw [← abs_of_nonneg whole.nonneg]
    exact beyond.rounded_eq near
  have divided := div_rounds count.finite whole.finite (by rw [same]; positivity)
  rw [same] at divided
  have nonneg : 0 ≤ (Binary64.ofNat number).value / 2 ^ 53 :=
    div_nonneg count.nonneg (by positivity)
  have below : (Binary64.ofNat number).value / 2 ^ 53 ≤ 1 - 2 ^ (-53 : ℤ) := by
    rw [div_le_iff₀ (by positivity)]
    norm_num
    linarith
  have less : 1 - (2 : ℝ) ^ (-53 : ℤ) < 1 := sub_lt_self _ (by positivity)
  have share := measures_of_rounds divided (show Bound 0 by decide) nonneg
    (below.trans (by rw [zpow_zero]; exact less.le))
  refine isShare_of_value share.finite share.nonneg (lt_of_le_of_lt ?_ less)
  exact largest.value_le divided share.finite (by rwa [abs_of_nonneg nonneg])

/-- The generator that nodes run on gives fractions of one. -/
theorem fair_congruential (seed : UInt64) : Fair (Dice.congruential seed).portion := by
  intro count
  refine isShare_ofNat_div ?_
  rw [UInt64.toNat_shiftRight, Nat.shiftRight_eq_div_pow]
  exact Nat.div_lt_of_lt_mul (UInt64.toNat_lt _)

end Dice

namespace Chance

variable {α β : Type}

/-- The source that is left gives the same fractions, after as many draws. -/
def KeepsSource (chance : Chance α) : Prop := ∀ dice, (chance dice).2.portion = dice.portion

theorem keepsSource_pure (value : α) : KeepsSource (pure value) := fun _ => rfl

theorem KeepsSource.bind {chance : Chance α} {next : α → Chance β} (first : KeepsSource chance)
    (rest : ∀ value, KeepsSource (next value)) : KeepsSource (chance >>= next) :=
  fun dice => (rest _ _).trans (first dice)

theorem keepsSource_ite {condition : Prop} [Decidable condition] {yes no : Chance α}
    (left : KeepsSource yes) (right : KeepsSource no) :
    KeepsSource (if condition then yes else no) := by
  split
  · exact left
  · exact right

theorem keepsSource_index (limit : Nat) : KeepsSource (Dice.index limit) := by
  intro dice
  rw [Dice.index]
  split
  · rfl
  · rfl

theorem keepsSource_fraction : KeepsSource Dice.fraction := fun _ => rfl

theorem keepsSource_deal (count : Nat) (items : List α) : KeepsSource (Dice.deal count items) := by
  induction count generalizing items with
  | zero => exact keepsSource_pure _
  | succ count ih =>
      cases items with
      | nil => exact keepsSource_pure _
      | cons first rest =>
          refine (keepsSource_index _).bind fun place => ?_
          exact (ih _).bind fun more => keepsSource_pure _

theorem keepsSource_direction : KeepsSource Dice.direction :=
  keepsSource_fraction.bind fun _ => keepsSource_fraction.bind fun _ =>
    keepsSource_fraction.bind fun _ => keepsSource_pure _

theorem keepsSource_jittered (span : Duration) : KeepsSource (Dice.jittered span) :=
  keepsSource_fraction.bind fun _ => keepsSource_pure _

section Caches

variable (cache : PeerCache) (entry : Entry) (now : Timestamp)

theorem keepsSource_randomIndex (protect : Option PeerId) (entries : List Entry) :
    KeepsSource (PeerCache.randomIndex protect entries) :=
  keepsSource_ite (keepsSource_pure _)
    ((keepsSource_index _).bind fun _ => keepsSource_pure _)

theorem keepsSource_victim (eviction : Eviction) (protect : Option PeerId)
    (entries : List Entry) : KeepsSource (PeerCache.victim eviction protect entries) := by
  cases eviction with
  | random => exact keepsSource_randomIndex protect entries
  | oldest => exact keepsSource_pure _

theorem keepsSource_giveUp (eviction : Eviction) (protect : Option PeerId) (excess : Nat)
    (entries : List Entry) : KeepsSource (PeerCache.giveUp eviction protect excess entries) := by
  induction excess generalizing entries with
  | zero => exact keepsSource_pure _
  | succ excess ih =>
      refine (keepsSource_victim eviction protect entries).bind fun place => ?_
      cases place with
      | some place => exact ih _
      | none => exact keepsSource_pure _

theorem keepsSource_trim (limit : Nat) (protect : Option PeerId) :
    KeepsSource (cache.trim limit protect) :=
  (keepsSource_giveUp _ _ _ _).bind fun _ => keepsSource_pure _

theorem keepsSource_add : KeepsSource (cache.add entry) :=
  keepsSource_ite (keepsSource_pure _)
    ((keepsSource_trim _ _ _).bind fun _ => keepsSource_pure _)

theorem keepsSource_addAll (incoming : List Entry) : KeepsSource (cache.addAll now incoming) :=
  keepsSource_trim _ _ _

theorem keepsSource_replace (limit : Nat) : KeepsSource (cache.replace entry limit) :=
  keepsSource_ite (keepsSource_pure _) (keepsSource_trim _ _ _)

theorem keepsSource_pickPlaces (length count draws : Nat) (picked : List Nat) :
    KeepsSource (PeerCache.pickPlaces length count draws picked) := by
  induction draws generalizing picked with
  | zero => exact keepsSource_pure _
  | succ draws ih =>
      exact keepsSource_ite (keepsSource_pure _) ((keepsSource_index _).bind fun _ => ih _)

theorem keepsSource_sample (count : Nat) : KeepsSource (cache.sample count) := by
  have places : KeepsSource (PeerCache.samplePlaces cache.size count) :=
    (keepsSource_pickPlaces _ _ _ _).bind fun _ =>
      (keepsSource_deal _ _).bind fun _ => keepsSource_pure _
  exact keepsSource_ite (keepsSource_pure _) (places.bind fun _ => keepsSource_pure _)

theorem keepsSource_randomEntry : KeepsSource cache.randomEntry :=
  keepsSource_ite (keepsSource_pure _)
    ((keepsSource_index _).bind fun _ => keepsSource_pure _)

end Caches

section Engines

variable (engine : Engine) (own : PeerRecord) (now : Timestamp)

theorem keepsSource_message (receiver : PeerRecord) (isRequest : Bool) :
    KeepsSource (engine.message own now receiver isRequest) := by
  have payload : KeepsSource (engine.payload own now) :=
    (keepsSource_sample _ _).bind fun _ => keepsSource_pure _
  exact payload.bind fun _ => keepsSource_pure _

theorem keepsSource_learn (entries : List Entry) : KeepsSource (engine.learn now entries) :=
  (keepsSource_addAll _ _ _).bind fun _ => keepsSource_pure _

theorem keepsSource_answer (request : Message) : KeepsSource (engine.answer own now request) :=
  (keepsSource_message _ _ _ _ _).bind fun _ =>
    (keepsSource_learn _ _ _).bind fun _ => keepsSource_pure _

theorem keepsSource_keepFallback (sender : PeerRecord) :
    KeepsSource (engine.keepFallback now sender) := by
  rw [Engine.keepFallback]
  split
  · exact (keepsSource_replace _ _ _).bind fun _ => keepsSource_pure _
  · exact keepsSource_pure _

theorem keepsSource_accept (reply : Message) : KeepsSource (engine.accept now reply) :=
  (keepsSource_learn _ _ _).bind fun _ =>
    (keepsSource_keepFallback _ _ _).bind fun _ => keepsSource_pure _

theorem keepsSource_target : KeepsSource engine.target := by
  rw [Engine.target]
  split
  · exact (keepsSource_randomEntry _).bind fun _ => keepsSource_pure _
  · exact keepsSource_pure _

theorem keepsSource_fallbackTarget (failed : PeerId) :
    KeepsSource (engine.fallbackTarget failed) :=
  keepsSource_ite (keepsSource_pure _)
    ((keepsSource_index _).bind fun _ => keepsSource_pure _)

theorem keepsSource_seed : KeepsSource (engine.seed own now) :=
  (keepsSource_add _ _).bind fun _ => keepsSource_pure _

end Engines

section Nodes

variable (node : Node)

theorem keepsSource_randomKnownNode : KeepsSource node.randomKnownNode := by
  have cached : KeepsSource node.randomCachedNode :=
    keepsSource_ite (keepsSource_pure _)
      ((keepsSource_index _).bind fun _ => keepsSource_pure _)
  rw [Node.randomKnownNode]
  split
  · exact keepsSource_pure _
  · exact cached

theorem keepsSource_randomNeighbor : KeepsSource node.randomNeighbor :=
  keepsSource_ite (keepsSource_pure _)
    ((keepsSource_index _).bind fun _ => keepsSource_pure _)

end Nodes

end Chance

end Overlay
