import Mathlib
import SwarmEvolution.Number.Single

/-! Which bit patterns are finite numbers. The conversion of an integer writes such a pattern, so it
gives a finite number without being clamped. -/
namespace SwarmEvolution.Number

open Float.Model

section Patterns

variable {bits : BitVec 32}

/-- The exponent bits of a single-precision pattern. -/
abbrev exponentBits (bits : BitVec 32) : BitVec 8 :=
  @UnpackedFloat.unpackExponent .binary32 bits

theorem toNat_exponentBits (bits : BitVec 32) :
    (exponentBits bits).toNat = bits.toNat / 2 ^ 23 % 2 ^ 8 := by
  unfold exponentBits UnpackedFloat.unpackExponent
  rw [BitVec.toNat_cast, BitVec.extractLsb_toNat, Nat.shiftRight_eq_div_pow]
  rfl

theorem isFinite_unpack (exponent : exponentBits bits ≠ -1#8) :
    (UnpackedFloat.unpack .binary32 bits).isFinite := by
  unfold UnpackedFloat.unpack
  dsimp only
  rw [if_neg exponent]
  split
  · split <;> rfl
  · rfl

/-- A number below the range of infinity is packed with an exponent of its own. -/
theorem exponentBits_pack_finite {sign : UnpackedFloat.Sign} {mantissa : Nat} {exponent : Int}
    {positive : 0 < mantissa} (small : exponent + 150 < 255) :
    exponentBits (UnpackedFloat.pack .binary32 (.finite sign mantissa exponent positive)) ≠
      -1#8 := by
  have bias : ((Format.binary32.exponentBias : Nat) : Int) = 127 := rfl
  have places : ((Format.binary32.mantissaBitsWithoutImplicit : Nat) : Int) = 23 := rfl
  have biased : (exponent + 127 + 23).toNat < 255 := by omega
  simp only [UnpackedFloat.pack, bias, places, exponentBits]
  intro same
  split at same
  case isTrue beyond =>
    change 256 ≤ _ at beyond
    omega
  split at same
  · rw [UnpackedFloat.unpackExponent_packComponents] at same
    have values := congrArg BitVec.toNat same
    rw [BitVec.toNat_ofNat] at values
    change _ % 256 = 255 at values
    omega
  · rw [UnpackedFloat.unpackExponent_packComponents] at same
    exact absurd same (by decide)

/-- Reading a pattern and packing it again does not set all of its exponent bits. -/
theorem exponentBits_pack_unpack (exponent : exponentBits bits ≠ -1#8) :
    exponentBits (UnpackedFloat.pack .binary32 (UnpackedFloat.unpack .binary32 bits)) ≠ -1#8 := by
  have bias : ((Format.binary32.exponentBias : Nat) : Int) = 127 := rfl
  have below : (exponentBits bits).toNat < 255 := by
    have other : (exponentBits bits).toNat ≠ 255 := fun same =>
      exponent (BitVec.eq_of_toNat_eq same)
    have bound := (exponentBits bits).isLt
    omega
  unfold UnpackedFloat.unpack
  dsimp only
  rw [if_neg exponent]
  split
  case isTrue subnormal =>
    split
    · rw [exponentBits, UnpackedFloat.pack, UnpackedFloat.packedZero,
        UnpackedFloat.unpackExponent_packComponents]
      decide
    · apply exponentBits_pack_finite
      rw [bias, subnormal]
      decide
  case isFalse normal =>
    apply exponentBits_pack_finite
    rw [bias]
    change ((exponentBits bits).toNat : Int) - (127 + 23) + 150 < 255
    omega

end Patterns

/-- A pattern whose magnitude is below that of infinity is a finite number. -/
theorem isFinite_ofBits {bits : UInt32}
    (size : bits.toNat % Format.single.signBit < Format.single.infinity) :
    (Float32.ofBits bits).isFinite := by
  have exponent : exponentBits bits.toBitVec ≠ -1#8 := by
    intro same
    have values := congrArg BitVec.toNat same
    rw [toNat_exponentBits] at values
    change bits.toNat / 2 ^ 23 % 2 ^ 8 = 255 at values
    change bits.toNat % 2147483648 < 2139095040 at size
    omega
  exact isFinite_unpack (exponentBits_pack_unpack exponent)

theorem halfEven_le (num den : Nat) : Format.halfEven num den ≤ num / den + 1 := by
  unfold Format.halfEven
  dsimp only
  split
  · omega
  · split <;> omega

/-- Rounding leaves at most one more significant digit than there are places. -/
theorem significand_le (scaled : Nat) :
    Format.halfEven scaled (2 ^ (scaled.log2 + 1 - 24)) ≤ 2 ^ 24 := by
  have whole : scaled < 2 ^ (scaled.log2 + 1) := Nat.lt_log2_self
  have powers : 2 ^ (scaled.log2 + 1) ≤ 2 ^ 24 * 2 ^ (scaled.log2 + 1 - 24) := by
    rw [← Nat.pow_add]
    exact Nat.pow_le_pow_right (by decide) (by omega)
  have quotient : scaled / 2 ^ (scaled.log2 + 1 - 24) < 2 ^ 24 :=
    Nat.div_lt_of_lt_mul (by rw [Nat.mul_comm]; omega)
  exact Nat.le_trans (halfEven_le ..) quotient

/-- A whole number below `2 ^ 32` stays far below infinity when it is rounded. -/
theorem round_lt_infinity {num : Nat} (bound : num < 2 ^ 32) :
    Format.single.round num 1 < Format.single.infinity := by
  have scaled : num * 2 ^ 149 < 2 ^ 181 := by omega
  have exponent : (num * 2 ^ 149).log2 ≤ 180 := by
    rcases Nat.eq_zero_or_pos num with rfl | positive
    · decide
    · exact Nat.le_of_lt_succ ((Nat.log2_lt (by omega)).mpr scaled)
  have significand := significand_le (num * 2 ^ 149)
  have same : Format.single.round num 1 =
      min (((num * 2 ^ 149).log2 + 1 - 24) * 2 ^ 23 +
        Format.halfEven (num * 2 ^ 149) (2 ^ ((num * 2 ^ 149).log2 + 1 - 24)))
      Format.single.infinity := by
    simp only [Format.round, Nat.div_one, Nat.one_mul]
    rfl
  have infinity : Format.single.infinity = 2139095040 := rfl
  rw [same]
  omega

/-- A sign bit over a magnitude below infinity. -/
theorem isFinite_signed {size : Nat} (small : size < Format.single.infinity) (negative : Prop)
    [Decidable negative] :
    (Float32.ofBits
      (UInt32.ofNat ((if negative then Format.single.signBit else 0) + size))).isFinite := by
  have infinity : Format.single.infinity = 2139095040 := rfl
  have sign : Format.single.signBit = 2147483648 := rfl
  apply isFinite_ofBits
  rw [UInt32.toNat_ofNat', sign]
  split <;> omega

theorem isFinite_ofInt32 (n : Int32) : (ofInt32 n).isFinite := by
  have low := n.le_toInt
  have high := n.toInt_lt
  have range : n.toInt.natAbs < 2 ^ 32 := by omega
  exact isFinite_signed (round_lt_infinity range) (n < 0)

end SwarmEvolution.Number
