import Overlay.Proofs.Binary64.Packing

/-!
Sums and products of doubles.

A double that stands for an exact number is a nearest one, and it is finite unless the number is too
large (`Rounds`). Sums, differences and products of
finite doubles stand for the exact ones.
-/

set_option autoImplicit false

namespace Overlay.Binary64

open Float.Model (Format UnpackedFloat totalExponent)
open Float.Model.UnpackedFloat

theorem abs_unitOfSign (sign : Sign) : |unitOfSign sign| = 1 := by
  cases sign <;> simp [unitOfSign]

theorem unitOfSign_mul (left right : Sign) :
    unitOfSign (left * right) = unitOfSign left * unitOfSign right := by
  cases left <;> cases right
  · exact (neg_one_mul (-1 : ℝ)).symm ▸ (neg_neg (1 : ℝ)).symm
  · exact (mul_one (-1 : ℝ)).symm
  · exact (one_mul (-1 : ℝ)).symm
  · exact (one_mul (1 : ℝ)).symm

theorem unitOfSign_div (left right : Sign) :
    unitOfSign (left / right) = unitOfSign left / unitOfSign right := by
  rw [div_eq_mul_inv]
  cases left <;> cases right
  · exact (by norm_num : (1 : ℝ) = -1 * (-1)⁻¹)
  · exact (by norm_num : (-1 : ℝ) = -1 * 1⁻¹)
  · exact (by norm_num : (-1 : ℝ) = 1 * (-1)⁻¹)
  · exact (by norm_num : (1 : ℝ) = 1 * 1⁻¹)

theorem real_assemble (sign : Sign) (mantissa : ℕ) (exponent : ℤ) :
    real (assemble sign mantissa exponent) = unitOfSign sign * (mantissa * 2 ^ exponent) := by
  rw [assemble]
  split
  · next none => simp [real, none]
  · rfl

theorem isFinite_assemble (sign : Sign) (mantissa : ℕ) (exponent : ℤ) :
    (assemble sign mantissa exponent).isFinite := by
  rw [assemble]
  split <;> rfl

/-- A result as it is read back from its bits. -/
def settle (number : UnpackedFloat) : UnpackedFloat :=
  UnpackedFloat.unpack .binary64 (pack .binary64 number)

/-- What the double that stands for an exact number has to do with it. -/
structure Rounds (exact : ℝ) (number : UnpackedFloat) : Prop where
  finite : |exact| < 2 ^ (1024 : ℤ) - 2 ^ (970 : ℤ) → number.isFinite
  nearest : number.isFinite → Nearest |exact| |real number|
  nonneg : 0 ≤ exact → 0 ≤ real number

section Rounds

variable {exact : ℝ} {number : UnpackedFloat} (rounds : Rounds exact number)
  (finite : number.isFinite)

include rounds finite

theorem Rounds.le (power : ℤ) (least : -1074 ≤ power) (upper : |exact| ≤ 2 ^ power) :
    |real number| ≤ 2 ^ power :=
  (rounds.nearest finite).le power least upper

theorem Rounds.ge (power : ℤ) (least : -1074 ≤ power) (lower : 2 ^ power ≤ |exact|) :
    2 ^ power ≤ |real number| :=
  (rounds.nearest finite).ge power least lower

end Rounds

theorem rounds_assemble {sign : Sign} {mantissa : ℕ} {exponent : ℤ} {magnitude : ℝ}
    (canonical : Canonical mantissa exponent) (positive : 0 < magnitude)
    (nearest : Nearest magnitude (mantissa * 2 ^ exponent)) :
    Rounds (unitOfSign sign * magnitude) (settle (assemble sign mantissa exponent)) := by
  have exact_eq : |unitOfSign sign * magnitude| = magnitude := by
    rw [abs_mul, abs_unitOfSign, one_mul, abs_of_pos positive]
  have bits_nonneg : 0 ≤ (mantissa : ℝ) * 2 ^ exponent := by positivity
  rw [settle, unpack_pack_assemble sign canonical]
  by_cases fits : exponent ≤ 971
  · have real_eq : |real (assemble sign mantissa exponent)| = mantissa * 2 ^ exponent := by
      rw [real_assemble, abs_mul, abs_unitOfSign, one_mul, abs_of_nonneg bits_nonneg]
    rw [if_pos fits]
    refine ⟨fun _ => isFinite_assemble _ _ _, fun _ => ?_, fun upward => ?_⟩
    · rw [exact_eq, real_eq]
      exact nearest
    · rw [real_assemble]
      cases sign with
      | positive => simpa [unitOfSign] using bits_nonneg
      | negative =>
          rw [unitOfSign, neg_one_mul] at upward
          linarith
  · have full : 2 ^ 52 ≤ mantissa := canonical.full.resolve_left (by omega)
    have large : (2 : ℝ) ^ (1024 : ℤ) ≤ mantissa * 2 ^ exponent := by
      have power : (2 : ℝ) ^ (1024 - 52 : ℤ) ≤ 2 ^ exponent :=
        zpow_le_zpow_right₀ one_le_two (by omega)
      calc (2 : ℝ) ^ (1024 : ℤ) = 2 ^ 52 * 2 ^ (1024 - 52 : ℤ) := by
            rw [← zpow_natCast, ← zpow_add₀ two_ne_zero]
            norm_num
        _ ≤ mantissa * 2 ^ exponent :=
            mul_le_mul (by exact_mod_cast full) power (by positivity) (by positivity)
    rw [if_neg fits]
    refine ⟨fun small => ?_, nofun, fun _ => le_refl _⟩
    rw [exact_eq] at small
    exact absurd large (nearest.lt small).not_ge

theorem Settled.settle_eq {number : UnpackedFloat} (settled : Settled number) :
    settle number = number := settled.unpack_pack

/-- A double is the double that stands for itself. -/
theorem rounds_self {number : UnpackedFloat} (settled : Settled number)
    (finite : number.isFinite) : Rounds (real number) (settle number) := by
  rw [settled.settle_eq]
  refine ⟨fun _ => finite, fun _ => ?_, id⟩
  cases settled with
  | infinity | notANumber => cases finite
  | assemble sign canonical fits =>
      rw [real_assemble, abs_mul, abs_unitOfSign, one_mul, abs_of_nonneg (by positivity)]
      exact canonical.nearest_self

theorem stands_exact (mantissa : ℕ) :
    Stands (.ofMantissaAndAccuracy mantissa .exact) (mantissa : ℝ) := by
  have none : half false = 0 := if_neg Bool.false_ne_true
  refine ⟨?_, ?_, fun _ => ?_⟩
  · change (mantissa : ℝ) + half false ≤ mantissa
    linarith
  · change (mantissa : ℝ) < mantissa + half false + 1 / 2
    linarith
  · change (mantissa : ℝ) = mantissa + half false
    linarith

/-- The number lies in the first half of the unit above the mantissa. -/
theorem stands_below {mantissa : ℕ} {number : ℝ} (low : mantissa ≤ number)
    (high : number < mantissa + 1 / 2) :
    Stands (.ofMantissaAndAccuracy mantissa (.inexact .lt)) number := by
  have none : half false = 0 := if_neg Bool.false_ne_true
  refine ⟨?_, ?_, nofun⟩
  · change (mantissa : ℝ) + half false ≤ number
    linarith
  · change number < (mantissa : ℝ) + half false + 1 / 2
    linarith

theorem stands_middle {mantissa : ℕ} {number : ℝ} (same : number = mantissa + 1 / 2) :
    Stands (.ofMantissaAndAccuracy mantissa (.inexact .eq)) number := by
  have one : half true = 1 / 2 := if_pos rfl
  subst same
  refine ⟨?_, ?_, fun _ => ?_⟩
  · change (mantissa : ℝ) + half true ≤ _
    rw [one]
  · change _ < (mantissa : ℝ) + half true + 1 / 2
    linarith
  · change _ = (mantissa : ℝ) + half true
    rw [one]

theorem stands_above {mantissa : ℕ} {number : ℝ} (low : mantissa + 1 / 2 < number)
    (high : number < mantissa + 1) :
    Stands (.ofMantissaAndAccuracy mantissa (.inexact .gt)) number := by
  have one : half true = 1 / 2 := if_pos rfl
  refine ⟨?_, ?_, nofun⟩
  · change (mantissa : ℝ) + half true ≤ number
    linarith
  · change number < (mantissa : ℝ) + half true + 1 / 2
    linarith

/-- Moving bits from the exponent to the mantissa leaves the number as it is. -/
theorem shiftLeft_mul_zpow (mantissa shift : ℕ) (exponent : ℤ) :
    ((mantissa <<< shift : ℕ) : ℝ) * 2 ^ (exponent - shift) = mantissa * 2 ^ exponent := by
  rw [Nat.shiftLeft_eq, Nat.cast_mul, Nat.cast_pow, Nat.cast_ofNat, mul_assoc, ← zpow_natCast,
    ← zpow_add₀ two_ne_zero, add_sub_cancel]

theorem two_pow_le_shiftLeft {mantissa : ℕ} (shift : ℕ) (positive : 0 < mantissa) :
    2 ^ (mantissa.log2 + shift) ≤ mantissa <<< shift := by
  rw [Nat.shiftLeft_eq, Nat.pow_add]
  exact Nat.mul_le_mul_right _ (Nat.log2_self_le positive.ne')

theorem ample_shiftLeft {mantissa : ℕ} (exponent : ℤ) (positive : 0 < mantissa) :
    Ample (mantissa <<< (exponent - unitOf mantissa exponent).toNat)
      (exponent - (exponent - unitOf mantissa exponent).toNat) := by
  by_cases least : unitOf mantissa exponent = -1074
  · left
    omega
  · right
    have unit : unitOf mantissa exponent = mantissa.log2 + exponent - 52 := by
      rw [unitOf] at least ⊢
      omega
    have bits : 52 ≤ mantissa.log2 + (exponent - unitOf mantissa exponent).toNat := by omega
    exact (Nat.pow_le_pow_right (by norm_num) bits).trans (two_pow_le_shiftLeft _ positive)

/-- Rounding a positive number of which there are enough bits. -/
theorem rounds_roundWithAccuracy (sign : Sign) {mantissa : ℕ} {exponent : ℤ} {accuracy : Accuracy}
    {number : ℝ} (ample : Ample mantissa exponent) (positive : 0 < number)
    (stands : Stands (.ofMantissaAndAccuracy mantissa accuracy) number) :
    Rounds (unitOfSign sign * (number * 2 ^ exponent))
      (settle (roundWithAccuracy .binary64 sign mantissa exponent accuracy)) := by
  obtain ⟨rounded, unit, canonical, same, nearest⟩ := roundWithAccuracy_nearest sign ample stands
  rw [same]
  exact rounds_assemble canonical (by positivity) nearest

/-- Rounding a positive number that need not be written with enough bits. -/
theorem rounds_round (sign : Sign) {mantissa : ℕ} (exponent : ℤ) (positive : 0 < mantissa) :
    Rounds (unitOfSign sign * (mantissa * 2 ^ exponent))
      (settle (UnpackedFloat.round .binary64 sign mantissa exponent)) := by
  simp only [UnpackedFloat.round, decreaseExponent, targetExponent_eq]
  rw [← shiftLeft_mul_zpow mantissa (exponent - unitOf mantissa exponent).toNat exponent]
  refine rounds_roundWithAccuracy sign (ample_shiftLeft exponent positive) ?_ (stands_exact _)
  rw [Nat.shiftLeft_eq]
  positivity

theorem rounds_zero (sign : Sign) : Rounds 0 (settle (.zero sign)) :=
  rounds_self (settled_zero sign) rfl

/-- Rounding a whole number of units. -/
theorem rounds_normalize (count exponent : ℤ) (zeroSign : Sign) :
    Rounds (count * 2 ^ exponent)
      (settle (UnpackedFloat.normalize .binary64 count exponent zeroSign)) := by
  rw [UnpackedFloat.normalize]
  rcases lt_trichotomy count 0 with negative | rfl | positive
  · have cast : (count : ℝ) = unitOfSign .negative * (-count).toNat := by
      have whole : ((-count).toNat : ℤ) = -count := Int.toNat_of_nonneg (by omega)
      rw [← Int.cast_natCast, whole, Int.cast_neg, unitOfSign, neg_one_mul, neg_neg]
    rw [compare_lt_iff_lt.mpr negative, cast, mul_assoc]
    exact rounds_round .negative exponent (by omega)
  · rw [compare_eq_iff_eq.mpr rfl, Int.cast_zero, zero_mul]
    exact rounds_zero zeroSign
  · have cast : (count : ℝ) = unitOfSign .positive * count.toNat := by
      have whole : (count.toNat : ℤ) = count := Int.toNat_of_nonneg (by omega)
      rw [← Int.cast_natCast, whole, unitOfSign, one_mul]
    rw [compare_gt_iff_gt.mpr positive, cast, mul_assoc]
    exact rounds_round .positive exponent (by omega)

section Operations

variable {left right : UnpackedFloat}

/-- A number with its exponent made smaller. -/
theorem apply_decreaseExponent (sign : Sign) (mantissa : ℕ) {exponent target : ℤ}
    (below : target ≤ exponent) :
    ((sign.apply (decreaseExponent mantissa exponent target).1 : ℤ) : ℝ) * 2 ^ target =
      unitOfSign sign * (mantissa * 2 ^ exponent) := by
  have places : target = exponent - (exponent - target).toNat := by omega
  have same := shiftLeft_mul_zpow mantissa (exponent - target).toNat exponent
  rw [← places] at same
  cases sign with
  | negative =>
      rw [unitOfSign, neg_one_mul, ← same]
      change ((-((mantissa <<< (exponent - target).toNat : ℕ) : ℤ) : ℤ) : ℝ) * 2 ^ target = _
      rw [Int.cast_neg, Int.cast_natCast, neg_mul]
  | positive =>
      rw [unitOfSign, one_mul, ← same]
      rfl

theorem rounds_add (settledLeft : Settled left) (settledRight : Settled right)
    (finiteLeft : left.isFinite) (finiteRight : right.isFinite) :
    Rounds (real left + real right) (settle (UnpackedFloat.add .binary64 left right)) := by
  cases left with
  | infinity sign => cases finiteLeft
  | notANumber => cases finiteLeft
  | zero signLeft =>
      cases right with
      | infinity sign => cases finiteRight
      | notANumber => cases finiteRight
      | zero signRight =>
          simp only [UnpackedFloat.add, real, add_zero]
          split <;> exact rounds_zero _
      | finite signRight mantissaRight exponentRight positiveRight =>
          simp only [UnpackedFloat.add, real, zero_add]
          exact rounds_self settledRight rfl
  | finite signLeft mantissaLeft exponentLeft positiveLeft =>
      cases right with
      | infinity sign => cases finiteRight
      | notANumber => cases finiteRight
      | zero signRight =>
          simp only [UnpackedFloat.add, real, add_zero]
          exact rounds_self settledLeft rfl
      | finite signRight mantissaRight exponentRight positiveRight =>
          simp only [UnpackedFloat.add, real]
          rw [← apply_decreaseExponent signLeft mantissaLeft (min_le_left exponentLeft exponentRight),
            ← apply_decreaseExponent signRight mantissaRight (min_le_right _ _), ← add_mul,
            ← Int.cast_add]
          exact rounds_normalize _ _ _

theorem neg_assemble (sign : Sign) (mantissa : ℕ) (exponent : ℤ) :
    (assemble sign mantissa exponent).neg = assemble (-sign) mantissa exponent := by
  rw [assemble, assemble]
  split <;> rfl

theorem Settled.neg (settled : Settled right) : Settled right.neg := by
  cases settled with
  | infinity sign => exact .infinity (-sign)
  | notANumber => exact .notANumber
  | assemble sign canonical fits =>
      rw [neg_assemble]
      exact .assemble (-sign) canonical fits

theorem real_neg (number : UnpackedFloat) : real number.neg = -real number := by
  cases number with
  | finite sign mantissa exponent positive =>
      change unitOfSign (-sign) * _ = -(unitOfSign sign * _)
      rw [← neg_mul]
      cases sign
      · exact congrArg (· * _) (neg_neg (1 : ℝ)).symm
      · rfl
  | _ => exact neg_zero.symm

theorem isFinite_neg (number : UnpackedFloat) : number.neg.isFinite = number.isFinite := by
  cases number <;> rfl

theorem abs_assemble (sign : Sign) (mantissa : ℕ) (exponent : ℤ) :
    (assemble sign mantissa exponent).abs = assemble .positive mantissa exponent := by
  rw [assemble, assemble]
  split <;> rfl

theorem Settled.abs (settled : Settled right) : Settled right.abs := by
  cases settled with
  | infinity sign => exact .infinity .positive
  | notANumber => exact .notANumber
  | assemble sign canonical fits =>
      rw [abs_assemble]
      exact .assemble .positive canonical fits

theorem abs_real_abs (number : UnpackedFloat) : |real number.abs| = |real number| := by
  cases number with
  | finite sign mantissa exponent positive =>
      change |unitOfSign .positive * _| = |unitOfSign sign * _|
      rw [abs_mul, abs_mul (unitOfSign sign), abs_unitOfSign, abs_unitOfSign]
  | _ => rfl

theorem isFinite_abs (number : UnpackedFloat) : number.abs.isFinite = number.isFinite := by
  cases number <;> rfl

theorem apply_neg (sign : Sign) (count : ℤ) : (-sign).apply count = -sign.apply count := by
  cases sign with
  | negative => exact (neg_neg count).symm
  | positive => rfl

/-- Subtracting is adding the number with the other sign. -/
theorem sub_eq_add_opposite (left right : UnpackedFloat) :
    UnpackedFloat.sub .binary64 left right = UnpackedFloat.add .binary64 left right.neg := by
  cases left <;> cases right <;> try rfl
  simp only [UnpackedFloat.sub, UnpackedFloat.add, UnpackedFloat.neg, apply_neg, Int.sub_eq_add_neg]

theorem rounds_sub (settledLeft : Settled left) (settledRight : Settled right)
    (finiteLeft : left.isFinite) (finiteRight : right.isFinite) :
    Rounds (real left - real right) (settle (UnpackedFloat.sub .binary64 left right)) := by
  rw [sub_eq_add_opposite, sub_eq_add_neg, ← real_neg]
  exact rounds_add settledLeft settledRight.neg finiteLeft (isFinite_neg right ▸ finiteRight)

/-- The form that a finite number of a double has. -/
theorem Settled.canonical (settled : Settled left) {sign : Sign} {mantissa : ℕ} {exponent : ℤ}
    {positive : 0 < mantissa} (same : left = .finite sign mantissa exponent positive) :
    Canonical mantissa exponent ∧ exponent ≤ 971 := by
  cases settled with
  | infinity | notANumber => cases same
  | assemble _ canonical fits =>
      rw [Binary64.assemble] at same
      split at same
      · cases same
      · cases same
        exact ⟨canonical, fits⟩

theorem Canonical.ample_mul {mantissaLeft mantissaRight : ℕ} {exponentLeft exponentRight : ℤ}
    (canonicalLeft : Canonical mantissaLeft exponentLeft)
    (canonicalRight : Canonical mantissaRight exponentRight)
    (positiveLeft : 0 < mantissaLeft) (positiveRight : 0 < mantissaRight) :
    Ample (mantissaLeft * mantissaRight) (exponentLeft + exponentRight) := by
  rcases canonicalLeft.full with least | bits
  · rcases canonicalRight.full with least' | bits
    · left
      omega
    · exact Or.inr (bits.trans (Nat.le_mul_of_pos_left _ positiveLeft))
  · exact Or.inr (bits.trans (Nat.le_mul_of_pos_right _ positiveRight))

theorem rounds_mul (settledLeft : Settled left) (settledRight : Settled right)
    (finiteLeft : left.isFinite) (finiteRight : right.isFinite) :
    Rounds (real left * real right) (settle (UnpackedFloat.mul .binary64 left right)) := by
  cases left with
  | infinity sign => cases finiteLeft
  | notANumber => cases finiteLeft
  | zero signLeft =>
      cases right with
      | infinity sign => cases finiteRight
      | notANumber => cases finiteRight
      | zero signRight =>
          simp only [UnpackedFloat.mul, real, zero_mul]
          exact rounds_zero _
      | finite signRight mantissaRight exponentRight positiveRight =>
          simp only [UnpackedFloat.mul, real, zero_mul]
          exact rounds_zero _
  | finite signLeft mantissaLeft exponentLeft positiveLeft =>
      cases right with
      | infinity sign => cases finiteRight
      | notANumber => cases finiteRight
      | zero signRight =>
          simp only [UnpackedFloat.mul, real, mul_zero]
          exact rounds_zero _
      | finite signRight mantissaRight exponentRight positiveRight =>
          have ample := (settledLeft.canonical rfl).1.ample_mul (settledRight.canonical rfl).1
            positiveLeft positiveRight
          have rounds := rounds_roundWithAccuracy (signLeft * signRight) ample
            (by positivity) (stands_exact (mantissaLeft * mantissaRight))
          have product : real (.finite signLeft mantissaLeft exponentLeft positiveLeft) *
              real (.finite signRight mantissaRight exponentRight positiveRight) =
                unitOfSign (signLeft * signRight) * ((mantissaLeft * mantissaRight : ℕ) *
                  2 ^ (exponentLeft + exponentRight)) := by
            rw [unitOfSign_mul, zpow_add₀ two_ne_zero, Nat.cast_mul, real, real]
            ring
          rw [product]
          exact rounds

end Operations

end Overlay.Binary64
