import SwarmEvolution.Proofs.Number.Finite

/-! How single-precision numbers are read from bit patterns and written as such. Every pattern that
is a number is written as it was read. -/
namespace SwarmEvolution.Number

open Float.Model

section Patterns

variable {bits : BitVec 32}

theorem toNat_unpackMantissa (bits : BitVec 32) :
    (@UnpackedFloat.unpackMantissa .binary32 bits).toNat = bits.toNat % 2 ^ 23 := by
  unfold UnpackedFloat.unpackMantissa
  rw [BitVec.toNat_cast, BitVec.extractLsb_toNat]
  rfl

theorem toNat_unpackSign (bits : BitVec 32) :
    (@UnpackedFloat.unpackSign .binary32 bits).toNat = bits.toNat / 2 ^ 31 := by
  have range := bits.isLt
  unfold UnpackedFloat.unpackSign
  rw [BitVec.toNat_cast, BitVec.extractLsb_toNat, Nat.shiftRight_eq_div_pow]
  change bits.toNat / 2 ^ 31 % 2 = _
  omega

/-- The number that the bits of a pattern below the sign bit spell. -/
def magnitudeOf (bits : Nat) : Nat := bits % Format.single.signBit

/-- The sign of a pattern. -/
def signOf (bits : Nat) : UnpackedFloat.Sign :=
  if bits < Format.single.signBit then .positive else .negative

theorem ofBitVec_unpackSign (bits : BitVec 32) :
    UnpackedFloat.Sign.ofBitVec (@UnpackedFloat.unpackSign .binary32 bits) =
      signOf bits.toNat := by
  have digit := toNat_unpackSign bits
  have sign : Format.single.signBit = 2 ^ 31 := rfl
  unfold UnpackedFloat.Sign.ofBitVec signOf
  by_cases low : bits.toNat < 2 ^ 31
  · have zero : @UnpackedFloat.unpackSign .binary32 bits = 0#1 := by
      apply BitVec.eq_of_toNat_eq
      rw [digit, BitVec.toNat_zero]
      omega
    rw [if_pos zero, if_pos (sign ▸ low)]
  · have one : @UnpackedFloat.unpackSign .binary32 bits ≠ 0#1 := by
      intro zero
      rw [zero, BitVec.toNat_zero] at digit
      omega
    rw [if_neg one, if_neg (sign ▸ low)]

/-- The digit that is not written stands before the others. -/
theorem toNat_implicit (digits : BitVec 23) : (1#1 ++ digits).toNat = 2 ^ 23 + digits.toNat := by
  rw [BitVec.toNat_append, ← Nat.shiftLeft_add_eq_or_of_lt digits.isLt]
  rfl

/-- The digits of a number: as many as there are, but in the lowest binade there may be fewer. -/
structure Digits (binade mantissa : Nat) : Prop where
  short : mantissa < 2 ^ 24
  full : 0 < binade → 2 ^ 23 ≤ mantissa

/-- How a pattern is read, by its magnitude. -/
inductive Reads (bits : Nat) : UnpackedFloat → Prop
  | notANumber (beyond : Format.single.infinity < magnitudeOf bits) :
    Reads bits .notANumber
  | infinity (last : magnitudeOf bits = Format.single.infinity) :
    Reads bits (.infinity (signOf bits))
  | zero (first : magnitudeOf bits = 0) : Reads bits (.zero (signOf bits))
  | finite {mantissa : Nat} {exponent : Int} {positive : 0 < mantissa} (binade : Nat)
    (scale : exponent = binade - 149) (digits : Digits binade mantissa)
    (spelt : magnitudeOf bits = binade * 2 ^ 23 + mantissa)
    (below : magnitudeOf bits < Format.single.infinity) :
    Reads bits (.finite (signOf bits) mantissa exponent positive)

theorem reads_unpack (bits : BitVec 32) :
    Reads bits.toNat (UnpackedFloat.unpack .binary32 bits) := by
  have bias : ((Format.binary32.exponentBias : Nat) : Int) = 127 := rfl
  have infinity : Format.single.infinity = 255 * 2 ^ 23 := rfl
  have field := toNat_exponentBits bits
  have digits := toNat_unpackMantissa bits
  have spelt : magnitudeOf bits.toNat =
      bits.toNat / 2 ^ 23 % 2 ^ 8 * 2 ^ 23 + bits.toNat % 2 ^ 23 := by
    change bits.toNat % 2 ^ 31 = _
    omega
  unfold exponentBits at field
  unfold UnpackedFloat.unpack
  dsimp only
  rw [ofBitVec_unpackSign]
  rw [← field, ← digits] at spelt
  generalize @UnpackedFloat.unpackExponent .binary32 bits = e at field spelt ⊢
  split
  case isTrue top =>
    subst top
    change _ = 255 * 2 ^ 23 + _ at spelt
    split
    case isTrue none =>
      rw [none] at spelt
      exact .infinity spelt
    case isFalse some =>
      have nonzero : (@UnpackedFloat.unpackMantissa .binary32 bits).toNat ≠ 0 := fun zero =>
        some (BitVec.eq_of_toNat_eq zero)
      exact .notANumber (by omega)
  case isFalse other =>
    have below : e.toNat ≠ 255 := fun same => other (BitVec.eq_of_toNat_eq same)
    split
    case isTrue lowest =>
      subst lowest
      change _ = 0 * 2 ^ 23 + _ at spelt
      split
      case isTrue none =>
        rw [none] at spelt
        exact .zero spelt
      case isFalse some =>
        refine .finite 0 ?_ ⟨by omega, by omega⟩ spelt (by omega)
        rw [bias]
        decide
    case isFalse higher =>
      have positive : e.toNat ≠ 0 := fun same => higher (BitVec.eq_of_toNat_eq same)
      have range : e.toNat < 256 := e.isLt
      have whole := toNat_implicit (@UnpackedFloat.unpackMantissa .binary32 bits)
      have short := Nat.mod_lt bits.toNat (Nat.two_pow_pos 23)
      rw [← digits] at short
      obtain ⟨binade, next⟩ := Nat.exists_eq_succ_of_ne_zero positive
      rw [next, Nat.succ_mul, Nat.add_assoc, ← whole] at spelt
      refine .finite binade ?_ ⟨by omega, fun _ => ?_⟩ spelt (by omega)
      · rw [bias, next]
        omega
      · rw [whole]
        exact Nat.le_add_right ..

/-- Sign, exponent and digits stand one after another. -/
theorem toNat_packComponents (sign : UnpackedFloat.Sign) (exponent : BitVec 8)
    (digits : BitVec 23) :
    (@UnpackedFloat.packComponents .binary32 sign exponent digits).toNat =
      sign.toBitVec.toNat * 2 ^ 31 + (exponent.toNat * 2 ^ 23 + digits.toNat) := by
  unfold UnpackedFloat.packComponents
  change ((sign.toBitVec ++ exponent : BitVec 9) ++ digits).toNat = _
  rw [BitVec.toNat_append, ← Nat.shiftLeft_add_eq_or_of_lt digits.isLt, BitVec.toNat_append,
    ← Nat.shiftLeft_add_eq_or_of_lt exponent.isLt, Nat.shiftLeft_eq, Nat.shiftLeft_eq]
  omega

theorem sign_add_magnitude (bits : BitVec 32) :
    (signOf bits.toNat).toBitVec.toNat * 2 ^ 31 + magnitudeOf bits.toNat = bits.toNat := by
  have range := bits.isLt
  have sign : Format.single.signBit = 2147483648 := rfl
  simp only [signOf, magnitudeOf, sign]
  split
  · simp only [UnpackedFloat.Sign.toBitVec, BitVec.toNat_ofNat]
    omega
  · simp only [UnpackedFloat.Sign.toBitVec, BitVec.toNat_ofNat]
    omega

/-- The digit that all numbers have is not written, and tells the lowest binade from the others. -/
theorem toNat_pack_finite {sign : UnpackedFloat.Sign} {mantissa binade : Nat} {exponent : Int}
    {positive : 0 < mantissa} (scale : exponent = binade - 149) (digits : Digits binade mantissa)
    (range : binade < 254) :
    (UnpackedFloat.pack .binary32 (.finite sign mantissa exponent positive)).toNat =
      sign.toBitVec.toNat * 2 ^ 31 + (binade * 2 ^ 23 + mantissa) := by
  have bias : ((Format.binary32.exponentBias : Nat) : Int) = 127 := rfl
  have places : ((Format.binary32.mantissaBitsWithoutImplicit : Nat) : Int) = 23 := rfl
  have all : Format.binary32.mantissaBits = 24 := rfl
  have biased : (exponent + 127 + 23).toNat = binade + 1 := by omega
  obtain ⟨short, full⟩ := digits
  simp only [UnpackedFloat.pack, bias, places, all, biased]
  rw [if_neg (by change ¬ 256 ≤ _; omega)]
  by_cases written : 2 ^ 23 ≤ mantissa
  · have first : mantissa.log2 = 23 := (Nat.log2_eq_iff (by omega)).mpr ⟨written, short⟩
    rw [if_pos (by omega), toNat_packComponents, BitVec.toNat_ofNat, BitVec.toNat_ofNat]
    change _ + ((binade + 1) % 2 ^ 8 * 2 ^ 23 + mantissa % 2 ^ 23) = _
    omega
  · have fewer : mantissa.log2 ≠ 23 := fun same =>
      written (same ▸ Nat.log2_self_le (by omega))
    rw [if_neg (by omega), toNat_packComponents, BitVec.toNat_ofNat]
    change _ + (0 * 2 ^ 23 + mantissa % 2 ^ 23) = _
    omega

theorem pack_reads {bits : BitVec 32} {u : UnpackedFloat} (reads : Reads bits.toNat u)
    (number : u.isNaN = false) : UnpackedFloat.pack .binary32 u = bits := by
  have whole := sign_add_magnitude bits
  have infinity : Format.single.infinity = 255 * 2 ^ 23 := rfl
  apply BitVec.eq_of_toNat_eq
  rw [← whole]
  cases reads with
  | notANumber => contradiction
  | infinity last =>
    rw [UnpackedFloat.pack, UnpackedFloat.packedInfinity, toNat_packComponents, last]
    rfl
  | zero first =>
    rw [UnpackedFloat.pack, UnpackedFloat.packedZero, toNat_packComponents, first]
    rfl
  | finite binade scale digits spelt below =>
    have full := digits.full
    rw [toNat_pack_finite scale digits (by omega), spelt]

end Patterns

section Words

variable {bits : UInt32} {x : Float32}

theorem isNaN_eq_false_iff :
    x.isNaN = false ↔ magnitudeOf x.toBits.toNat ≤ Format.single.infinity := by
  change x.toModel.unpack.isNaN = false ↔ _
  have reads : Reads x.toBits.toNat x.toModel.unpack := reads_unpack _
  generalize x.toModel.unpack = u at reads ⊢
  cases reads with
  | notANumber beyond => exact iff_of_false (by decide) (Nat.not_le.mpr beyond)
  | infinity last => exact iff_of_true rfl (Nat.le_of_eq last)
  | zero first => exact iff_of_true rfl (by omega)
  | finite binade scale digits spelt below => exact iff_of_true rfl (Nat.le_of_lt below)

/-- A pattern that is a number is that number's pattern. -/
theorem toBits_ofBits (number : magnitudeOf bits.toNat ≤ Format.single.infinity) :
    (Float32.ofBits bits).toBits = bits := by
  have reads : Reads bits.toBitVec.toNat _ := reads_unpack bits.toBitVec
  apply UInt32.toBitVec_inj.mp
  change UnpackedFloat.pack .binary32 (UnpackedFloat.unpack .binary32 bits.toBitVec) = _
  refine pack_reads reads ?_
  generalize UnpackedFloat.unpack .binary32 bits.toBitVec = u at reads ⊢
  cases reads with
  | notANumber beyond => exact absurd number (Nat.not_le.mpr beyond)
  | _ => rfl

theorem isNaN_ofBits_iff :
    (Float32.ofBits bits).isNaN = false ↔ magnitudeOf bits.toNat ≤ Format.single.infinity := by
  constructor
  · intro number
    by_contra beyond
    have reads : Reads bits.toBitVec.toNat _ := reads_unpack bits.toBitVec
    change (UnpackedFloat.unpack .binary32
      (UnpackedFloat.pack .binary32 (UnpackedFloat.unpack .binary32 bits.toBitVec))).isNaN = false
      at number
    generalize UnpackedFloat.unpack .binary32 bits.toBitVec = u at reads number
    cases reads with
    | notANumber => exact absurd number (by decide)
    | infinity last => exact beyond (Nat.le_of_eq last)
    | zero first => exact beyond (first ▸ Nat.zero_le _)
    | finite binade scale digits spelt below => exact beyond (Nat.le_of_lt below)
  · intro number
    rw [isNaN_eq_false_iff, toBits_ofBits number]
    exact number

end Words
end SwarmEvolution.Number
