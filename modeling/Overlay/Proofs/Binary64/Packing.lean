import Overlay.Proofs.Binary64.Rounding

/-!
Doubles and their bits.

Reading bits gives a number in the form of a double (`settled_unpack`), and a number in that form
is read back from its bits as it was (`Settled.unpack_pack`).
-/

set_option autoImplicit false

namespace Overlay.Binary64

open Float.Model (Format UnpackedFloat)
open Float.Model.UnpackedFloat

theorem unpackSign_packComponents (sign : Sign) (exponent : BitVec 11) (mantissa : BitVec 52) :
    unpackSign (packComponents .binary64 sign exponent mantissa) = sign.toBitVec := by
  have top : (sign.toBitVec ++ exponent ++ mantissa).getLsbD 63 = sign.toBitVec[0] := by
    rw [BitVec.getLsbD_append, BitVec.getLsbD_append]
    simp [BitVec.getLsbD_eq_getElem]
  ext place within
  obtain rfl : place = 0 := by omega
  simp only [unpackSign, packComponents, BitVec.getElem_cast, BitVec.extractLsb,
    BitVec.getElem_extractLsb']
  exact top

theorem ofBitVec_toBitVec (sign : Sign) : Sign.ofBitVec sign.toBitVec = sign := by
  cases sign <;> rfl

theorem toNat_leading (mantissa : BitVec 52) :
    (1#1 ++ mantissa).toNat = 2 ^ 52 + mantissa.toNat := by
  rw [BitVec.toNat_append, ← Nat.shiftLeft_add_eq_or_of_lt mantissa.isLt]
  rfl

/-- What the three fields of a double say. -/
theorem unpack_packComponents (sign : Sign) (exponent : BitVec 11) (mantissa : BitVec 52) :
    UnpackedFloat.unpack .binary64 (packComponents .binary64 sign exponent mantissa) =
      if exponent = -1#_ then if mantissa = 0#_ then .infinity sign else .notANumber
      else if exponent = 0#_ then assemble sign mantissa.toNat (-1074)
      else .finite sign (2 ^ 52 + mantissa.toNat) (exponent.toNat - 1075)
        (Nat.add_pos_left (Nat.two_pow_pos 52) _) := by
  simp only [UnpackedFloat.unpack, unpackMantissa_packComponents, unpackExponent_packComponents,
    unpackSign_packComponents, ofBitVec_toBitVec, toNat_leading]
  split
  · rfl
  · split
    · next zero =>
        rw [assemble]
        by_cases none : mantissa = 0#_
        · rw [dif_pos none, dif_pos (by rw [none]; rfl)]
        · have some : mantissa.toNat ≠ 0 := fun same => none (BitVec.toNat_inj.mp same)
          rw [dif_neg none, dif_neg some, zero]
          rfl
    · rfl

/-- A number as the fields of a double give it. -/
inductive Settled : UnpackedFloat → Prop
  | infinity (sign : Sign) : Settled (.infinity sign)
  | notANumber : Settled .notANumber
  | assemble (sign : Sign) {mantissa : ℕ} {exponent : ℤ} (canonical : Canonical mantissa exponent)
      (fits : exponent ≤ 971) : Settled (assemble sign mantissa exponent)

theorem unpack_packedInfinity (sign : Sign) :
    UnpackedFloat.unpack .binary64 (packedInfinity .binary64 sign) = .infinity sign := by
  rw [packedInfinity, unpack_packComponents]
  rfl

/-- The fields that a finite number is packed into. -/
theorem pack_finite (sign : Sign) (mantissa : ℕ) (exponent : ℤ) (positive : 0 < mantissa) :
    pack .binary64 (.finite sign mantissa exponent positive) =
      if 2048 ≤ (exponent + 1075).toNat + 1 then packedInfinity .binary64 sign
      else if mantissa.log2 + 1 = 53 then
        packComponents .binary64 sign (BitVec.ofNat 11 (exponent + 1075).toNat)
          (BitVec.ofNat 52 mantissa)
      else packComponents .binary64 sign 0#11 (BitVec.ofNat 52 mantissa) := by
  have bits : Format.binary64.mantissaBits = 53 := rfl
  have bias : exponent + Format.binary64.exponentBias +
      Format.binary64.mantissaBitsWithoutImplicit = exponent + 1075 := by
    change exponent + (1023 : ℕ) + (52 : ℕ) = _
    omega
  simp only [pack, bias, bits]

section Survives

variable {mantissa : ℕ} {exponent : ℤ}

/-- A mantissa with its leading bit is packed without it. -/
theorem unpack_pack_normal (sign : Sign) (positive : 0 < mantissa)
    (canonical : Canonical mantissa exponent) (fits : exponent ≤ 971)
    (normal : 2 ^ 52 ≤ mantissa) :
    UnpackedFloat.unpack .binary64 (pack .binary64 (.finite sign mantissa exponent positive)) =
      .finite sign mantissa exponent positive := by
  have least := canonical.least
  have short := canonical.short
  have bits : mantissa.log2 + 1 = 53 := by
    have := (Nat.le_log2 positive.ne').mpr normal
    have := (Nat.log2_lt positive.ne').mpr short
    omega
  have field : (BitVec.ofNat 11 (exponent + 1075).toNat).toNat = (exponent + 1075).toNat := by
    rw [BitVec.toNat_ofNat, Nat.mod_eq_of_lt (by omega)]
  have notFull : BitVec.ofNat 11 (exponent + 1075).toNat ≠ -1#_ := by
    intro same
    rw [same] at field
    change 2047 = _ at field
    omega
  have notZero : BitVec.ofNat 11 (exponent + 1075).toNat ≠ 0#_ := by
    intro same
    rw [same] at field
    change 0 = _ at field
    omega
  have fraction : 2 ^ 52 + (BitVec.ofNat 52 mantissa).toNat = mantissa := by
    rw [BitVec.toNat_ofNat]
    omega
  rw [pack_finite, if_neg (by omega), if_pos bits, unpack_packComponents, if_neg notFull,
    if_neg notZero]
  simp only [field, fraction]
  congr
  omega

/-- A mantissa without a leading bit comes with the least exponent. -/
theorem unpack_pack_subnormal (sign : Sign) (positive : 0 < mantissa)
    (small : mantissa < 2 ^ 52) :
    UnpackedFloat.unpack .binary64 (pack .binary64 (.finite sign mantissa (-1074) positive)) =
      .finite sign mantissa (-1074) positive := by
  have bits : mantissa.log2 + 1 ≠ 53 := by
    have := (Nat.log2_lt positive.ne').mpr small
    omega
  have fraction : (BitVec.ofNat 52 mantissa).toNat = mantissa := by
    rw [BitVec.toNat_ofNat, Nat.mod_eq_of_lt small]
  rw [pack_finite, if_neg (by decide), if_neg bits, unpack_packComponents, if_neg (by decide),
    if_pos rfl, fraction, assemble, dif_neg positive.ne']

/-- A number in the form of a double survives packing, unless it is too large. -/
theorem unpack_pack_assemble (sign : Sign) (canonical : Canonical mantissa exponent) :
    UnpackedFloat.unpack .binary64 (pack .binary64 (assemble sign mantissa exponent)) =
      if exponent ≤ 971 then assemble sign mantissa exponent else .infinity sign := by
  rcases Nat.eq_zero_or_pos mantissa with rfl | positive
  · have : exponent = -1074 := canonical.full.resolve_right (by norm_num)
    rw [if_pos (by omega)]
    exact unpack_packComponents sign 0 0
  rw [assemble, dif_neg positive.ne']
  by_cases fits : exponent ≤ 971
  · rw [if_pos fits]
    by_cases normal : 2 ^ 52 ≤ mantissa
    · exact unpack_pack_normal sign positive canonical fits normal
    · obtain rfl : exponent = -1074 := canonical.full.resolve_right normal
      exact unpack_pack_subnormal sign positive (Nat.lt_of_not_le normal)
  · rw [if_neg fits, pack_finite, if_pos (by omega)]
    exact unpack_packedInfinity sign

end Survives

theorem settled_finite {sign : Sign} {mantissa : ℕ} {exponent : ℤ} {positive : 0 < mantissa}
    (canonical : Canonical mantissa exponent) (fits : exponent ≤ 971) :
    Settled (.finite sign mantissa exponent positive) := by
  have same : assemble sign mantissa exponent = .finite sign mantissa exponent positive :=
    dif_neg positive.ne'
  exact same ▸ .assemble sign canonical fits

theorem canonical_zero : Canonical 0 (-1074) := ⟨by norm_num, le_refl _, Or.inl rfl⟩

theorem settled_zero (sign : Sign) : Settled (.zero sign) :=
  .assemble sign canonical_zero (by norm_num)

/-- Whatever the bits are, they are read as a number in the form of a double. -/
theorem settled_unpack (bits : BitVec 64) : Settled (UnpackedFloat.unpack .binary64 bits) := by
  have bias : ((Format.binary64.exponentBias : ℤ) + Format.binary64.mantissaBitsWithoutImplicit) =
      1075 := rfl
  have short (fraction : BitVec 52) : fraction.toNat < 2 ^ 52 := fraction.isLt
  have narrow (field : BitVec 11) : field.toNat < 2 ^ 11 := field.isLt
  have top : (-1#11).toNat = 2047 := rfl
  have same {field other : BitVec 11} (equal : field.toNat = other.toNat) : field = other :=
    BitVec.toNat_inj.mp equal
  simp only [UnpackedFloat.unpack, bias]
  split
  · split
    · exact .infinity _
    · exact .notANumber
  · next notFull =>
      have notTop : (@unpackExponent .binary64 bits).toNat ≠ 2047 :=
        fun equal => notFull (same (equal.trans top.symm))
      have within := narrow (@unpackExponent .binary64 bits)
      split
      · next zero =>
          have none : (@unpackExponent .binary64 bits).toNat = 0 := by
            rw [zero]
            rfl
          split
          · exact settled_zero _
          · refine settled_finite ⟨?_, ?_, Or.inl ?_⟩ ?_
            · exact (short _).trans (by norm_num)
            all_goals omega
      · next notZero =>
          have some : (@unpackExponent .binary64 bits).toNat ≠ 0 :=
            fun equal => notZero (same equal)
          refine settled_finite ⟨?_, ?_, Or.inr ?_⟩ ?_
          · rw [toNat_leading]
            have := short (@unpackMantissa .binary64 bits)
            omega
          · omega
          · rw [toNat_leading]
            exact Nat.le_add_right _ _
          · omega

theorem Settled.unpack_pack {number : UnpackedFloat} (settled : Settled number) :
    UnpackedFloat.unpack .binary64 (pack .binary64 number) = number := by
  cases settled with
  | infinity sign => exact unpack_packedInfinity sign
  | notANumber =>
      change UnpackedFloat.unpack .binary64 (packComponents .binary64 .positive (-1#11) _) = _
      rw [unpack_packComponents]
      rfl
  | assemble sign canonical fits => rw [unpack_pack_assemble sign canonical, if_pos fits]

end Overlay.Binary64
