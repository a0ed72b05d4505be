import Mathlib
import Overlay.Binary64

/-!
Rounding to the nearest double.

A mantissa carries two bits about what was cut off (`Stands`), so that rounding it goes to a nearest
whole count of units. What is used of that is how the result lies to the powers of two and to the
doubles next to each other (`Nearest`): it is on the same side of each power as the exact number,
and it is not beyond a double that the exact number is nearer to than to the next one.
-/

set_option autoImplicit false

namespace Overlay.Binary64

open Float.Model Float.Model.UnpackedFloat

/-- What the round bit of a mantissa stands for. -/
noncomputable def half (bit : Bool) : ℝ := if bit then 1 / 2 else 0

/-- One, with a sign. -/
def unitOfSign : Sign → ℝ
  | .negative => -1
  | .positive => 1

/-- The number itself; zero for what is infinite or no number. -/
noncomputable def real : UnpackedFloat → ℝ
  | .finite sign mantissa exponent _ => unitOfSign sign * (mantissa * 2 ^ exponent)
  | _ => 0

/-- A mantissa with its two residual bits stands for a number: the bits tell in which half of the
unit above the mantissa the number lies, and whether it lies at the beginning of that half. -/
structure Stands (extended : ExtendedMantissa) (number : ℝ) : Prop where
  low : extended.mantissa + half extended.roundBit ≤ number
  high : number < extended.mantissa + half extended.roundBit + 1 / 2
  sharp : extended.stickyBit = false → number = extended.mantissa + half extended.roundBit

theorem half_nonneg (bit : Bool) : 0 ≤ half bit := by
  cases bit <;> norm_num [half]

theorem half_le (bit : Bool) : half bit ≤ 1 / 2 := by
  cases bit <;> norm_num [half]

/-- The last bit of a mantissa becomes the round bit when it is shifted out. -/
theorem half_last (mantissa : Nat) :
    (mantissa : ℝ) / 2 = (mantissa / 2 : Nat) + half (mantissa % 2 != 0) := by
  have parts : (mantissa : ℝ) = 2 * (mantissa / 2 : Nat) + (mantissa % 2 : Nat) := by
    exact_mod_cast (Nat.div_add_mod mantissa 2).symm
  rcases Nat.mod_two_eq_zero_or_one mantissa with even | odd
  · rw [even] at parts ⊢
    simp only [half, bne_self_eq_false, Bool.false_eq_true, if_false]
    push_cast at parts
    linarith
  · rw [odd] at parts ⊢
    simp only [half, Nat.one_ne_zero, bne_iff_ne, ne_eq, not_false_eq_true, if_true]
    push_cast at parts
    linarith

theorem Stands.shiftRightOne {extended : ExtendedMantissa} {number : ℝ}
    (stands : Stands extended number) : Stands extended.shiftRightOne (number / 2) := by
  obtain ⟨mantissa, roundBit, stickyBit⟩ := extended
  obtain ⟨low, high, sharp⟩ := stands
  have last := half_last mantissa
  have := half_nonneg roundBit
  have := half_le roundBit
  dsimp only at low high sharp
  refine ⟨?_, ?_, fun clear => ?_⟩
  · change (mantissa / 2 : Nat) + half (mantissa % 2 != 0) ≤ number / 2
    linarith
  · change number / 2 < (mantissa / 2 : Nat) + half (mantissa % 2 != 0) + 1 / 2
    linarith
  · change number / 2 = (mantissa / 2 : Nat) + half (mantissa % 2 != 0)
    obtain ⟨whole, rest⟩ := Bool.or_eq_false_iff.mp clear
    have exact := sharp rest
    change roundBit = false at whole
    rw [whole] at exact
    simp only [half, Bool.false_eq_true, if_false] at exact
    linarith

theorem Stands.shiftRight {extended : ExtendedMantissa} {number : ℝ}
    (stands : Stands extended number) (places : Nat) :
    Stands (extended >>> places) (number / 2 ^ places) := by
  change Stands (places.repeat ExtendedMantissa.shiftRightOne extended) _
  induction places with
  | zero => simpa [Nat.repeat] using stands
  | succ places ih =>
      rw [pow_succ, ← div_div]
      exact ih.shiftRightOne

theorem mantissa_shiftRight (extended : ExtendedMantissa) (places : Nat) :
    (extended >>> places).mantissa = extended.mantissa / 2 ^ places := by
  change (places.repeat ExtendedMantissa.shiftRightOne extended).mantissa = _
  induction places with
  | zero => simp [Nat.repeat]
  | succ places ih =>
      rw [pow_succ, ← Nat.div_div_eq_div_mul, ← ih]
      rfl

/-- A rounded mantissa is the mantissa itself or the next one. -/
theorem roundedMantissa_cases (extended : ExtendedMantissa) :
    extended.roundedMantissa = extended.mantissa ∨
      extended.roundedMantissa = extended.mantissa + 1 := by
  obtain ⟨mantissa, roundBit, stickyBit⟩ := extended
  cases roundBit <;> cases stickyBit
  · exact Or.inl rfl
  · exact Or.inl rfl
  · change mantissa + mantissa % 2 = mantissa ∨ mantissa + mantissa % 2 = mantissa + 1
    omega
  · exact Or.inr rfl

/-- Rounding goes to a nearest whole number. -/
theorem Stands.abs_roundedMantissa_sub_le {extended : ExtendedMantissa} {number : ℝ}
    (stands : Stands extended number) : |extended.roundedMantissa - number| ≤ 1 / 2 := by
  obtain ⟨mantissa, roundBit, stickyBit⟩ := extended
  obtain ⟨low, high, sharp⟩ := stands
  dsimp only at low high sharp
  have parity : ((mantissa % 2 : Nat) : ℝ) = 0 ∨ ((mantissa % 2 : Nat) : ℝ) = 1 := by
    exact_mod_cast Nat.mod_two_eq_zero_or_one mantissa
  rw [abs_le]
  cases roundBit <;> cases stickyBit <;>
    simp only [half, ExtendedMantissa.roundedMantissa, ExtendedMantissa.accuracy,
      Accuracy.roundToNearestEven, Bool.false_eq_true, if_false, if_true, Nat.cast_add,
      Nat.cast_one] at low high sharp ⊢
  · have := sharp trivial
    constructor <;> linarith
  · constructor <;> linarith
  · have := sharp trivial
    rcases parity with even | odd <;> constructor <;> linarith
  · constructor <;> linarith

/-- How a number and the double that it is rounded to lie to the powers of two. The least of them
is the distance between the smallest doubles; below the limit a number is rounded to something that
is no infinity. On either side of the middle between a double and the next one, a number is not
rounded to anything beyond the one on its side. -/
structure Nearest (exact rounded : ℝ) : Prop where
  le : ∀ power : ℤ, -1074 ≤ power → exact ≤ 2 ^ power → rounded ≤ 2 ^ power
  ge : ∀ power : ℤ, -1074 ≤ power → 2 ^ power ≤ exact → 2 ^ power ≤ rounded
  lt : exact < 2 ^ (1024 : ℤ) - 2 ^ (970 : ℤ) → rounded < 2 ^ (1024 : ℤ)
  below : ∀ (count : ℕ) (power : ℤ), 2 ^ 52 ≤ count → count < 2 ^ 53 → -1074 ≤ power →
    exact < (count + 1 / 2) * 2 ^ power → rounded ≤ count * 2 ^ power
  above : ∀ (count : ℕ) (power : ℤ), 2 ^ 52 ≤ count → count < 2 ^ 53 → -1074 ≤ power →
    (count + 1 / 2) * 2 ^ power < exact → (count + 1) * 2 ^ power ≤ rounded

/-- The powers of two about the largest double, in terms of half of its last place. -/
theorem top_powers : (2 : ℝ) ^ (971 : ℤ) = 2 * 2 ^ (970 : ℤ) ∧
    (2 : ℝ) ^ (1024 : ℤ) = 2 ^ 54 * 2 ^ (970 : ℤ) := by
  constructor
  · rw [show (971 : ℤ) = 1 + 970 by norm_num, zpow_add₀ two_ne_zero, zpow_one]
  · rw [show (1024 : ℤ) = (54 : ℕ) + 970 by norm_num, zpow_add₀ two_ne_zero, zpow_natCast]

/-- A power of two that is not below the unit is a whole number of units. -/
theorem zpow_eq_mul_unit {unit power : ℤ} (above : unit ≤ power) :
    ((2 ^ (power - unit).toNat : ℕ) : ℝ) * 2 ^ unit = 2 ^ power := by
  have whole : ((power - unit).toNat : ℤ) = power - unit := Int.toNat_of_nonneg (by omega)
  rw [Nat.cast_pow, Nat.cast_ofNat, ← zpow_natCast, whole, ← zpow_add₀ two_ne_zero,
    sub_add_cancel]

/-- A number is rounded to a whole count of units, and at most half a unit away. A unit above the
least one leaves fifty-three bits to the count. -/
structure HalfAway (exact : ℝ) (unit : ℤ) (whole rounded : ℕ) : Prop where
  least : -1074 ≤ unit
  full : unit = -1074 ∨ 2 ^ 52 ≤ whole
  low : whole * 2 ^ unit ≤ exact
  next : whole ≤ rounded
  short : rounded ≤ 2 ^ 53
  near : |rounded - exact / 2 ^ unit| ≤ 1 / 2

namespace HalfAway

variable {exact : ℝ} {unit : ℤ} {whole rounded : ℕ}

theorem wide (away : HalfAway exact unit whole rounded) (above : unit ≠ -1074) :
    (2 : ℝ) ^ (unit + 52) ≤ whole * 2 ^ unit := by
  have bits : 2 ^ 52 ≤ whole := away.full.resolve_left above
  rw [zpow_add₀ two_ne_zero, mul_comm]
  refine mul_le_mul_of_nonneg_right ?_ (zpow_pos two_pos unit).le
  exact_mod_cast bits

theorem le (away : HalfAway exact unit whole rounded) {power : ℤ} (above : -1074 ≤ power)
    (upper : exact ≤ 2 ^ power) : (rounded : ℝ) * 2 ^ unit ≤ 2 ^ power := by
  have unit_pos : (0 : ℝ) < 2 ^ unit := zpow_pos two_pos unit
  by_cases within : unit ≤ power
  · have units := zpow_eq_mul_unit within
    have number : exact / 2 ^ unit ≤ ((2 ^ (power - unit).toNat : ℕ) : ℝ) := by
      rw [div_le_iff₀ unit_pos, units]
      exact upper
    have close : (rounded : ℝ) < ((2 ^ (power - unit).toNat : ℕ) : ℝ) + 1 := by
      linarith [(abs_le.mp away.near).2]
    have count : rounded ≤ 2 ^ (power - unit).toNat :=
      Nat.lt_succ_iff.mp (by exact_mod_cast close)
    rw [← units]
    exact mul_le_mul_of_nonneg_right (by exact_mod_cast count) unit_pos.le
  · have beyond : (2 : ℝ) ^ power < 2 ^ (unit + 52) :=
      zpow_lt_zpow_right₀ one_lt_two (by omega)
    have large : (2 : ℝ) ^ (unit + 52) ≤ exact := (away.wide (by omega)).trans away.low
    exact absurd (large.trans upper) beyond.not_ge

theorem ge (away : HalfAway exact unit whole rounded) {power : ℤ} (above : -1074 ≤ power)
    (lower : 2 ^ power ≤ exact) : (2 : ℝ) ^ power ≤ rounded * 2 ^ unit := by
  have unit_pos : (0 : ℝ) < 2 ^ unit := zpow_pos two_pos unit
  by_cases within : unit ≤ power
  · have units := zpow_eq_mul_unit within
    have number : ((2 ^ (power - unit).toNat : ℕ) : ℝ) ≤ exact / 2 ^ unit := by
      rw [le_div_iff₀ unit_pos, units]
      exact lower
    have close : ((2 ^ (power - unit).toNat : ℕ) : ℝ) < rounded + 1 := by
      linarith [(abs_le.mp away.near).1]
    have count : 2 ^ (power - unit).toNat ≤ rounded :=
      Nat.lt_succ_iff.mp (by exact_mod_cast close)
    rw [← units]
    exact mul_le_mul_of_nonneg_right (by exact_mod_cast count) unit_pos.le
  · calc (2 : ℝ) ^ power ≤ 2 ^ (unit + 52) := zpow_le_zpow_right₀ one_le_two (by omega)
      _ ≤ whole * 2 ^ unit := away.wide (by omega)
      _ ≤ rounded * 2 ^ unit :=
        mul_le_mul_of_nonneg_right (by exact_mod_cast away.next) unit_pos.le

theorem lt (away : HalfAway exact unit whole rounded)
    (small : exact < 2 ^ (1024 : ℤ) - 2 ^ (970 : ℤ)) :
    (rounded : ℝ) * 2 ^ unit < 2 ^ (1024 : ℤ) := by
  obtain ⟨place, limit⟩ := top_powers
  have place_pos : (0 : ℝ) < 2 ^ (970 : ℤ) := zpow_pos two_pos _
  rcases lt_trichotomy unit 971 with lower | rfl | above
  · have count : (rounded : ℝ) ≤ 2 ^ 53 := by exact_mod_cast away.short
    have power : (2 : ℝ) ^ unit ≤ 2 ^ (970 : ℤ) := zpow_le_zpow_right₀ one_le_two (by omega)
    have bits : (rounded : ℝ) * 2 ^ unit ≤ 2 ^ 53 * 2 ^ (970 : ℤ) :=
      mul_le_mul count power (zpow_pos two_pos unit).le (by positivity)
    rw [limit]
    generalize (2 : ℝ) ^ (970 : ℤ) = place at *
    linarith only [bits, place_pos]
  · -- the last double before the limit is half a unit away from it
    have near := away.near
    rw [limit] at small ⊢
    rw [place] at near ⊢
    generalize (2 : ℝ) ^ (970 : ℤ) = half at *
    have number : exact / (2 * half) < 2 ^ 53 - 1 / 2 := by
      rw [div_lt_iff₀ (mul_pos two_pos place_pos)]
      linarith
    have close : (rounded : ℝ) < 2 ^ 53 := by linarith [(abs_le.mp near).2]
    have bits := mul_lt_mul_of_pos_right close place_pos
    linarith
  · have top : (2 : ℝ) ^ (1024 : ℤ) ≤ 2 ^ (unit + 52) :=
      zpow_le_zpow_right₀ one_le_two (by omega)
    have large : (2 : ℝ) ^ (1024 : ℤ) ≤ exact := (top.trans (away.wide (by omega))).trans away.low
    exact absurd large (small.trans (sub_lt_self _ place_pos)).not_ge

/-- The exact number in units, from below and from above. -/
theorem bounds (away : HalfAway exact unit whole rounded) :
    (rounded - 1 / 2) * 2 ^ unit ≤ exact ∧ exact ≤ (rounded + 1 / 2) * 2 ^ unit := by
  have unit_pos : (0 : ℝ) < 2 ^ unit := zpow_pos two_pos unit
  obtain ⟨low, high⟩ := abs_le.mp away.near
  rw [← le_div_iff₀ unit_pos, ← div_le_iff₀ unit_pos]
  constructor <;> linarith

/-- A double whose last place is worth more than the unit is not below the rounded number. -/
theorem finer (away : HalfAway exact unit whole rounded) {count : ℕ} {power : ℤ}
    (full : 2 ^ 52 ≤ count) (less : unit < power) :
    (rounded : ℝ) * 2 ^ unit ≤ count * 2 ^ power := by
  have double : (2 : ℝ) * 2 ^ unit ≤ 2 ^ power := by
    rw [← zpow_one_add₀ two_ne_zero]
    exact zpow_le_zpow_right₀ one_le_two (by omega)
  have most : (rounded : ℝ) ≤ 2 ^ 52 * 2 := by
    have bits : (rounded : ℝ) ≤ 2 ^ 53 := by exact_mod_cast away.short
    linarith
  calc (rounded : ℝ) * 2 ^ unit ≤ 2 ^ 52 * 2 * 2 ^ unit :=
        mul_le_mul_of_nonneg_right most (zpow_pos two_pos unit).le
    _ = 2 ^ 52 * (2 * 2 ^ unit) := mul_assoc _ _ _
    _ ≤ count * 2 ^ power :=
        mul_le_mul (by exact_mod_cast full) double (by positivity) (by positivity)

/-- A double whose last place is worth less than the unit is below the number, and so is the next
one. -/
theorem coarser (away : HalfAway exact unit whole rounded) {count : ℕ} {power : ℤ}
    (short : count < 2 ^ 53) (least : -1074 ≤ power) (less : power < unit) :
    ((count : ℝ) + 1) * 2 ^ power ≤ whole * 2 ^ unit := by
  have bits : (count : ℝ) + 1 ≤ 2 ^ 53 := by exact_mod_cast short
  calc ((count : ℝ) + 1) * 2 ^ power ≤ 2 ^ 53 * 2 ^ power :=
        mul_le_mul_of_nonneg_right bits (zpow_pos two_pos power).le
    _ = 2 ^ (power + 53) := by
        rw [zpow_add₀ two_ne_zero, mul_comm]
        norm_num
    _ ≤ 2 ^ (unit + 52) := zpow_le_zpow_right₀ one_le_two (by omega)
    _ ≤ whole * 2 ^ unit := away.wide (by omega)

theorem below (away : HalfAway exact unit whole rounded) {count : ℕ} {power : ℤ}
    (full : 2 ^ 52 ≤ count) (short : count < 2 ^ 53) (least : -1074 ≤ power)
    (less : exact < (count + 1 / 2) * 2 ^ power) :
    (rounded : ℝ) * 2 ^ unit ≤ count * 2 ^ power := by
  have unit_pos : (0 : ℝ) < 2 ^ unit := zpow_pos two_pos unit
  rcases lt_trichotomy unit power with finer | rfl | coarser
  · exact away.finer full finer
  · have close := lt_of_mul_lt_mul_right (away.bounds.1.trans_lt less) unit_pos.le
    have next : (rounded : ℝ) < count + 1 := by linarith
    have within : rounded ≤ count := Nat.lt_succ_iff.mp (by exact_mod_cast next)
    exact mul_le_mul_of_nonneg_right (by exact_mod_cast within) unit_pos.le
  · have beyond := (away.coarser short least coarser).trans away.low
    have power_pos : (0 : ℝ) < 2 ^ power := zpow_pos two_pos power
    exact absurd (beyond.trans_lt less) (by linarith)

theorem above (away : HalfAway exact unit whole rounded) {count : ℕ} {power : ℤ}
    (full : 2 ^ 52 ≤ count) (short : count < 2 ^ 53) (least : -1074 ≤ power)
    (more : (count + 1 / 2) * 2 ^ power < exact) :
    ((count : ℝ) + 1) * 2 ^ power ≤ rounded * 2 ^ unit := by
  have unit_pos : (0 : ℝ) < 2 ^ unit := zpow_pos two_pos unit
  rcases lt_trichotomy unit power with finer | rfl | coarser
  · have within := away.finer full finer
    have wider : (2 : ℝ) ^ unit < 2 ^ power := zpow_lt_zpow_right₀ one_lt_two finer
    have close := more.trans_le away.bounds.2
    exact absurd close (by linarith)
  · have close := lt_of_mul_lt_mul_right (more.trans_le away.bounds.2) unit_pos.le
    have next : (count : ℝ) < rounded := by linarith
    have within : count + 1 ≤ rounded := by exact_mod_cast next
    exact mul_le_mul_of_nonneg_right (by exact_mod_cast within) unit_pos.le
  · exact (away.coarser short least coarser).trans
      (mul_le_mul_of_nonneg_right (by exact_mod_cast away.next) unit_pos.le)

theorem nearest (away : HalfAway exact unit whole rounded) :
    Nearest exact (rounded * 2 ^ unit) :=
  ⟨fun _ => away.le, fun _ => away.ge, away.lt, fun _ _ => away.below, fun _ _ => away.above⟩

end HalfAway

/-- A mantissa and an exponent as doubles have them, were there no largest exponent. -/
structure Canonical (mantissa : ℕ) (exponent : ℤ) : Prop where
  short : mantissa < 2 ^ 53
  least : -1074 ≤ exponent
  full : exponent = -1074 ∨ 2 ^ 52 ≤ mantissa

/-- A double is not rounded to anything but itself. -/
theorem Canonical.nearest_self {mantissa : ℕ} {exponent : ℤ}
    (canonical : Canonical mantissa exponent) :
    Nearest (mantissa * 2 ^ exponent) (mantissa * 2 ^ exponent) := by
  have unit_pos : (0 : ℝ) < 2 ^ exponent := zpow_pos two_pos exponent
  have away : HalfAway (mantissa * 2 ^ exponent) exponent mantissa mantissa := by
    refine ⟨canonical.least, canonical.full, le_refl _, le_refl _, canonical.short.le, ?_⟩
    rw [mul_div_cancel_right₀ _ unit_pos.ne', sub_self, abs_zero]
    norm_num
  exact away.nearest

/-- There are enough bits for rounding, or the exponent is so small that fewer will do. -/
def Ample (mantissa : ℕ) (exponent : ℤ) : Prop := exponent ≤ -1074 ∨ 2 ^ 52 ≤ mantissa

/-- The exponent of the last place of a double of a given magnitude. -/
def unitOf (mantissa : ℕ) (exponent : ℤ) : ℤ := max (mantissa.log2 + exponent - 52) (-1074)

theorem targetExponent_eq_max (total : ℤ) :
    Format.binary64.targetExponent total = max (total - 53) (-1074) := by
  have bits : (Format.binary64.mantissaBits : ℤ) = 53 := by decide
  have least : Format.binary64.minExponent = -1074 := by decide
  rw [Format.targetExponent, bits, least]

theorem targetExponent_eq (mantissa : ℕ) (exponent : ℤ) :
    Format.binary64.targetExponent (totalExponent mantissa exponent) =
      unitOf mantissa exponent := by
  rw [targetExponent_eq_max, totalExponent, unitOf]
  omega

/-- The first shift leaves fifty-three bits at most, and not fewer above the least unit. -/
theorem shifted_bounds {mantissa : ℕ} {exponent : ℤ} (ample : Ample mantissa exponent) :
    exponent ≤ unitOf mantissa exponent ∧
      mantissa / 2 ^ (unitOf mantissa exponent - exponent).toNat < 2 ^ 53 ∧
      (unitOf mantissa exponent = -1074 ∨
        2 ^ 52 ≤ mantissa / 2 ^ (unitOf mantissa exponent - exponent).toNat) := by
  have bits (enough : 2 ^ 52 ≤ mantissa) : 52 ≤ mantissa.log2 :=
    (Nat.le_log2 (by omega)).mpr enough
  have below : mantissa < 2 ^ (mantissa.log2 + 1) := Nat.lt_log2_self
  have within : exponent ≤ unitOf mantissa exponent := by
    rcases ample with small | enough
    · exact small.trans (le_max_right _ _)
    · have := bits enough
      exact le_max_of_le_left (by omega)
  refine ⟨within, ?_, ?_⟩
  · have places : mantissa.log2 + 1 ≤
        53 + (unitOf mantissa exponent - exponent).toNat := by
      have := le_max_left ((mantissa.log2 : ℤ) + exponent - 52) (-1074)
      change _ ≤ unitOf mantissa exponent at this
      omega
    rw [Nat.div_lt_iff_lt_mul (by positivity), ← pow_add]
    exact below.trans_le (Nat.pow_le_pow_right (by norm_num) places)
  · by_cases least : unitOf mantissa exponent = -1074
    · exact Or.inl least
    · right
      have unit : unitOf mantissa exponent = mantissa.log2 + exponent - 52 := by
        rw [unitOf] at least ⊢
        omega
      have some : mantissa ≠ 0 := by
        rintro rfl
        rcases ample with small | enough
        · rw [unitOf, Nat.log2_zero] at least
          omega
        · omega
      have places : 52 + (unitOf mantissa exponent - exponent).toNat = mantissa.log2 := by omega
      rw [Nat.le_div_iff_mul_le (by positivity), ← pow_add, places]
      exact Nat.log2_self_le some

/-- A mantissa with fifty-four bits is a power of two, and loses its last bit. -/
theorem reshifted {rounded : ℕ} {unit : ℤ} (short : rounded ≤ 2 ^ 53) (least : -1074 ≤ unit)
    (full : unit = -1074 ∨ 2 ^ 52 ≤ rounded) :
    Canonical (rounded / 2 ^ (unitOf rounded unit - unit).toNat)
        (unit + (unitOf rounded unit - unit).toNat) ∧
      ((rounded / 2 ^ (unitOf rounded unit - unit).toNat : ℕ) : ℝ) *
          2 ^ (unit + (unitOf rounded unit - unit).toNat) = rounded * 2 ^ unit := by
  rcases short.lt_or_eq with shorter | rfl
  · have bits : rounded.log2 ≤ 52 := by
      by_cases none : rounded = 0
      · rw [none, Nat.log2_zero]
        omega
      · exact Nat.lt_succ_iff.mp ((Nat.log2_lt none).mpr shorter)
    have same : (unitOf rounded unit - unit).toNat = 0 := by
      rw [unitOf]
      omega
    rw [same, pow_zero, Nat.div_one, Nat.cast_zero, add_zero]
    exact ⟨⟨shorter, least, full⟩, rfl⟩
  · have next : (unitOf (2 ^ 53) unit - unit).toNat = 1 := by
      rw [unitOf, Nat.log2_two_pow]
      omega
    rw [next, Nat.cast_one]
    refine ⟨⟨by norm_num, by omega, Or.inr (by norm_num)⟩, ?_⟩
    rw [zpow_add₀ two_ne_zero, zpow_one]
    norm_num
    ring

/-- A signed number of a given magnitude. -/
def assemble (sign : Sign) (mantissa : ℕ) (exponent : ℤ) : UnpackedFloat :=
  if none : mantissa = 0 then .zero sign
  else .finite sign mantissa exponent (Nat.pos_of_ne_zero none)

theorem roundWithAccuracy_eq (sign : Sign) (mantissa : ℕ) (exponent : ℤ) (accuracy : Accuracy) :
    roundWithAccuracy .binary64 sign mantissa exponent accuracy =
      let shift := (unitOf mantissa exponent - exponent).toNat
      let rounded := (ExtendedMantissa.ofMantissaAndAccuracy mantissa accuracy >>> shift
        ).roundedMantissa
      let more := (unitOf rounded (exponent + shift) - (exponent + shift)).toNat
      assemble sign (rounded / 2 ^ more) (exponent + shift + more) := by
  simp only [roundWithAccuracy, shiftToTargetExponent, shiftToExponent, targetExponent_eq,
    mantissa_shiftRight]
  rfl

/-- Rounding goes to a nearest number that has the form of a double. -/
theorem roundWithAccuracy_nearest {mantissa : ℕ} {exponent : ℤ} {accuracy : Accuracy} {number : ℝ}
    (sign : Sign) (ample : Ample mantissa exponent)
    (stands : Stands (.ofMantissaAndAccuracy mantissa accuracy) number) :
    ∃ rounded unit, Canonical rounded unit ∧
      roundWithAccuracy .binary64 sign mantissa exponent accuracy = assemble sign rounded unit ∧
      Nearest (number * 2 ^ exponent) (rounded * 2 ^ unit) := by
  obtain ⟨within, short, full⟩ := shifted_bounds ample
  have least : -1074 ≤ unitOf mantissa exponent := le_max_right _ _
  rw [roundWithAccuracy_eq]
  dsimp only
  have unit_eq : unitOf mantissa exponent =
      exponent + (unitOf mantissa exponent - exponent).toNat := by omega
  generalize (unitOf mantissa exponent - exponent).toNat = shift at *
  rw [unit_eq] at least full
  generalize shifted_eq : ExtendedMantissa.ofMantissaAndAccuracy mantissa accuracy >>> shift =
    shifted
  have whole : shifted.mantissa = mantissa / 2 ^ shift := by
    rw [← shifted_eq, mantissa_shiftRight]
    cases accuracy with
    | exact => rfl
    | inexact order => cases order <;> rfl
  have stands : Stands shifted (number / 2 ^ shift) := shifted_eq ▸ stands.shiftRight shift
  have units : number * 2 ^ exponent / 2 ^ (exponent + shift) = number / 2 ^ shift := by
    rw [zpow_add₀ two_ne_zero, zpow_natCast, mul_comm number, mul_div_mul_left _ _
      (zpow_ne_zero _ two_ne_zero)]
  rw [← whole] at short full
  have away : HalfAway (number * 2 ^ exponent) (exponent + shift) shifted.mantissa
      shifted.roundedMantissa := by
    refine ⟨least, full, ?_, ?_, ?_, ?_⟩
    · rw [← le_div_iff₀ (zpow_pos two_pos _), units]
      linarith [stands.low, half_nonneg shifted.roundBit]
    · rcases roundedMantissa_cases shifted with same | next <;> omega
    · rcases roundedMantissa_cases shifted with same | next <;> omega
    · rw [units]
      exact stands.abs_roundedMantissa_sub_le
  obtain ⟨canonical, same⟩ := reshifted away.short away.least
    (full.imp_right fun bits => bits.trans away.next)
  exact ⟨_, _, canonical, rfl, same ▸ away.nearest⟩

end Overlay.Binary64
