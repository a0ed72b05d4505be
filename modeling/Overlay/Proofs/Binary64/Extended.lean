import Mathlib.Data.EReal.Basic
import Overlay.Proofs.Binary64.Keys

/-!
The doubles among the extended reals.

A double that is not finite is one of the two infinities, unless it is no number (`eq_infinite`).
With these at the two ends, the comparison of doubles is the order of the extended reals, except
that nothing compares with what is no number (`lt_iff_extended_lt`).
-/

set_option autoImplicit false

namespace Overlay.Binary64

open Float.Model (UnpackedFloat)

variable {left right number : Binary64}

/-- The number in the extended reals; what is not finite stands at the end of its sign. -/
noncomputable def extended (number : Binary64) : EReal :=
  if number.isFinite then (number.value : EReal) else if number.isNegative then ⊥ else ⊤

theorem extended_of_isFinite (number : Binary64) (finite : number.isFinite) :
    number.extended = (number.value : EReal) := if_pos finite

theorem extended_infinity : infinity.extended = ⊤ := by
  rw [extended, if_neg (by decide), if_neg (by decide)]

theorem extended_negativeInfinity : negativeInfinity.extended = ⊥ := by
  rw [extended, if_neg (by decide), if_pos (by decide)]

theorem not_isNaN_of_isFinite (finite : number.isFinite) : number.isNaN = false := by
  have narrow : number.exponentField ≠ 2047 := by simpa [isFinite] using finite
  simp [isNaN, narrow]

theorem eq_infinite (proper : ¬ number.isNaN) (infinite : ¬ number.isFinite) :
    number = infinity ∨ number = negativeInfinity := by
  have full : number.exponentField = 2047 := by simpa [isFinite] using infinite
  have none : number.fractionField = 0 := by simpa [isNaN, full] using proper
  have bits := number.bits_eq
  rw [magnitude_eq, full, none] at bits
  cases number with
  | mk word =>
      split at bits
      · exact Or.inr (congrArg mk (UInt64.toNat_inj.mp bits))
      · exact Or.inl (congrArg mk (UInt64.toNat_inj.mp bits))

/-- Only infinity stands at the upper end. -/
theorem eq_infinity (proper : ¬ number.isNaN) (last : ⊤ ≤ number.extended) :
    number = infinity := by
  by_cases finite : number.isFinite
  · rw [extended_of_isFinite _ finite] at last
    exact absurd (top_le_iff.mp last) (EReal.coe_ne_top _)
  · refine (eq_infinite proper finite).resolve_right ?_
    rintro rfl
    rw [extended_negativeInfinity] at last
    exact absurd last (not_le.mpr bot_lt_top)

theorem unpacked_of_isNaN (undefined : number.isNaN) : number.unpacked = .notANumber := by
  rw [isNaN, Bool.and_eq_true_iff, beq_iff_eq, bne_iff_ne] at undefined
  obtain ⟨full, some⟩ := undefined
  rw [exponentField_eq] at full
  rw [fractionField_eq] at some
  have exponent : @UnpackedFloat.unpackExponent .binary64 number.bits.toBitVec = -1#_ :=
    BitVec.eq_of_toNat_eq full
  rw [unpacked, UnpackedFloat.unpack, if_pos exponent, if_neg]
  rintro none
  exact some (congrArg BitVec.toNat none)

theorem lt_infinity (finite : number.isFinite) : number.lt infinity := by
  rw [isFinite_eq] at finite
  rw [lt_eq, show infinity.unpacked = .infinity .positive from rfl, UnpackedFloat.lt]
  cases unpacked : number.unpacked with
  | infinity | notANumber =>
      rw [unpacked] at finite
      cases finite
  | zero | finite => rfl

theorem negativeInfinity_lt (finite : number.isFinite) : negativeInfinity.lt number := by
  rw [isFinite_eq] at finite
  rw [lt_eq, show negativeInfinity.unpacked = .infinity .negative from rfl, UnpackedFloat.lt]
  cases unpacked : number.unpacked with
  | infinity | notANumber =>
      rw [unpacked] at finite
      cases finite
  | zero | finite => rfl

/-- What is no number is not less than anything. -/
theorem not_lt_of_isNaN (undefined : left.isNaN) : left.lt right = false := by
  rw [lt_eq, unpacked_of_isNaN undefined]
  rfl

theorem lt_iff_extended_lt (properLeft : ¬ left.isNaN) (properRight : ¬ right.isNaN) :
    left.lt right ↔ left.extended < right.extended := by
  by_cases finiteLeft : left.isFinite
  · by_cases finiteRight : right.isFinite
    · rw [extended_of_isFinite _ finiteLeft, extended_of_isFinite _ finiteRight,
        EReal.coe_lt_coe_iff, lt_iff_value_lt finiteLeft finiteRight]
    · rw [extended_of_isFinite _ finiteLeft]
      rcases eq_infinite properRight finiteRight with rfl | rfl
      · rw [extended_infinity]
        exact iff_of_true (lt_infinity finiteLeft) (EReal.coe_lt_top _)
      · rw [extended_negativeInfinity, not_lt_negativeInfinity]
        exact iff_of_false Bool.false_ne_true not_lt_bot
  · rcases eq_infinite properLeft finiteLeft with rfl | rfl
    · rw [extended_infinity, not_infinity_lt]
      exact iff_of_false Bool.false_ne_true not_top_lt
    · rw [extended_negativeInfinity]
      by_cases finiteRight : right.isFinite
      · rw [extended_of_isFinite _ finiteRight]
        exact iff_of_true (negativeInfinity_lt finiteRight) (EReal.bot_lt_coe _)
      · rcases eq_infinite properRight finiteRight with rfl | rfl
        · rw [extended_infinity]
          exact iff_of_true (by decide) bot_lt_top
        · rw [extended_negativeInfinity, not_lt_negativeInfinity]
          exact iff_of_false Bool.false_ne_true not_lt_bot

end Overlay.Binary64
