import SwarmEvolution.Number.Decimal
import SwarmEvolution.Proofs.Number.Rounding

/-! The shortest digits of a number read back to it. What a decimal reads to depends on its value
alone, so that zeros at the end of its digits do not matter, and the exact digits read back. -/
namespace SwarmEvolution.Number

section Values

variable {num den : Nat}

theorem halfEven_scale {k : Nat} (positive : 0 < k) (num den : Nat) :
    Format.halfEven (num * k) (den * k) = Format.halfEven num den := by
  unfold Format.halfEven
  dsimp only
  rw [Nat.mul_div_mul_right _ _ positive, Nat.mul_mod_mul_right, ← Nat.mul_assoc]
  simp only [Nat.mul_lt_mul_right positive]

theorem round_scale (f : Format) {k : Nat} (positive : 0 < k) (num den : Nat) :
    f.round (num * k) (den * k) = f.round num den := by
  have scaled : num * k * Nat.pow 2 f.lowest = num * Nat.pow 2 f.lowest * k := by
    rw [Nat.mul_right_comm]
  unfold Format.round
  dsimp only
  rw [scaled, Nat.mul_div_mul_right _ _ positive, Nat.mul_right_comm den,
    halfEven_scale positive]

/-- Rounding only depends on the value of a quotient. -/
theorem round_congr (f : Format) {num' den' : Nat} (positive : 0 < den) (positive' : 0 < den')
    (value : num * den' = num' * den) : f.round num den = f.round num' den' := by
  rw [← round_scale f positive' num den, value, Nat.mul_comm den, round_scale f positive]

end Values

namespace Decimal

/-- The same value with zeros at the end of its digits. -/
def padded (d : Decimal) (zeros : Nat) : Decimal := ⟨d.digits * 10 ^ zeros, d.exponent - zeros⟩

@[simp]
theorem padded_zero (d : Decimal) : d.padded 0 = d := by simp [padded]

theorem digitCount_mul {n : Nat} (positive : 0 < n) (zeros : Nat) :
    digitCount (n * 10 ^ zeros) = digitCount n + zeros := by
  induction zeros with
  | zero => rw [Nat.pow_zero, Nat.mul_one, Nat.add_zero]
  | succ zeros ih =>
    have some : 0 < n * 10 ^ zeros := Nat.mul_pos positive (Nat.pow_pos (by decide))
    unfold digitCount at ih ⊢
    rw [Nat.pow_succ, ← Nat.mul_assoc, Nat.toDigits_of_base_le (by decide) (by omega),
      Nat.mul_div_cancel _ (by decide), List.length_append, List.length_singleton, ih,
      Nat.add_assoc]

theorem point_padded {d : Decimal} (positive : 0 < d.digits) (zeros : Nat) :
    (d.padded zeros).point = d.point := by
  unfold point padded
  rw [digitCount_mul positive]
  push_cast
  omega

theorem fraction_pos (d : Decimal) : 0 < d.fraction.2 := Nat.pow_pos (by decide)

theorem fraction_padded (d : Decimal) (zeros : Nat) :
    (d.padded zeros).fraction.1 * d.fraction.2 = d.fraction.1 * (d.padded zeros).fraction.2 := by
  have powers : zeros + ((d.exponent - zeros).toNat + (-d.exponent).toNat) =
      d.exponent.toNat + (-(d.exponent - zeros)).toNat := by omega
  change d.digits * 10 ^ zeros * 10 ^ (d.exponent - zeros).toNat * 10 ^ (-d.exponent).toNat =
    d.digits * 10 ^ d.exponent.toNat * 10 ^ (-(d.exponent - zeros)).toNat
  rw [Nat.mul_assoc, Nat.mul_assoc, Nat.mul_assoc, ← Nat.pow_add, ← Nat.pow_add, ← Nat.pow_add,
    powers]

/-- What a decimal reads to does not depend on zeros at its end. -/
theorem ofDecimal_padded (f : Format) (d : Decimal) (zeros : Nat) :
    f.ofDecimal (d.padded zeros) = f.ofDecimal d := by
  by_cases empty : d.digits = 0
  · simp [Format.ofDecimal, padded, empty]
  · have some : (d.padded zeros).digits ≠ 0 :=
      Nat.mul_ne_zero empty (Nat.pow_pos (by decide)).ne'
    have same := round_congr f (fraction_pos _) (fraction_pos _) (fraction_padded d zeros)
    unfold Format.ofDecimal
    rw [if_neg some, if_neg empty, point_padded (Nat.pos_of_ne_zero empty), same]

theorem ofDecimal_go (f : Format) (count : Nat) (d : Decimal) :
    f.ofDecimal (trim.go count d) = f.ofDecimal d := by
  induction count generalizing d with
  | zero => rfl
  | succ count ih =>
    unfold trim.go
    split
    case isTrue zero =>
      have whole : (⟨d.digits / 10, d.exponent + 1⟩ : Decimal).padded 1 = d := by
        unfold padded
        rw [Nat.pow_one, Nat.div_mul_cancel (Nat.dvd_of_mod_eq_zero zero)]
        simp
      rw [ih, ← ofDecimal_padded f _ 1, whole]
    case isFalse => rfl

theorem ofDecimal_trim (f : Format) (d : Decimal) : f.ofDecimal d.trim = f.ofDecimal d := by
  unfold trim
  split
  case isTrue none => simp [Format.ofDecimal, none]
  case isFalse => exact ofDecimal_go f _ d

end Decimal

section Exact

variable {magnitude : Nat}

/-- A quotient that is worth as much as a number is rounded to it. -/
theorem round_extent {num den : Nat} (positive : 0 < den)
    (finite : magnitude < Format.single.infinity)
    (value : num * 2 ^ 149 = extent magnitude * den) : Format.single.round num den = magnitude := by
  obtain ⟨⟨short, full⟩, spelt⟩ := digits_parts magnitude
  rw [round_eq, value, Nat.mul_div_cancel _ positive]
  unfold extent
  generalize Format.single.parts magnitude = p at short full spelt
  obtain ⟨m, e⟩ := p
  dsimp only at short full spelt ⊢
  have exponent : (m * 2 ^ e).log2 + 1 - 24 = e := by
    rcases Nat.eq_zero_or_pos e with rfl | higher
    · rw [Nat.pow_zero, Nat.mul_one]
      rcases Nat.eq_zero_or_pos m with rfl | some
      · decide
      · have bound := (Nat.log2_lt (Nat.ne_of_gt some)).mpr short
        omega
    · have digits := full higher
      have first : (m * 2 ^ e).log2 = 23 + e := by
        refine (Nat.log2_eq_iff (Nat.mul_ne_zero (by omega) (Nat.two_pow_pos e).ne')).mpr ⟨?_, ?_⟩
        · rw [Nat.pow_add]
          exact Nat.mul_le_mul_right _ digits
        · rw [Nat.add_right_comm, Nat.pow_add]
          exact Nat.mul_lt_mul_of_pos_right short (Nat.two_pow_pos e)
      omega
  have spacing : m * 2 ^ e * den = m * (den * 2 ^ e) := by
    rw [Nat.mul_assoc, Nat.mul_comm den]
  rw [exponent, spacing, halfEven_mul (Nat.mul_pos positive (Nat.two_pow_pos e)), ← spelt]
  exact Nat.min_eq_left (Nat.le_of_lt finite)

theorem lt_254 (finite : magnitude < Format.single.infinity) :
    (Format.single.parts magnitude).2 < 254 := by
  obtain ⟨-, spelt⟩ := digits_parts magnitude
  have infinity : Format.single.infinity = 255 * 2 ^ 23 := rfl
  have digits := (digits_parts magnitude).1.full
  omega

theorem exact_eq (magnitude : Nat) : Format.single.exact magnitude =
    ⟨(Format.single.parts magnitude).1 * 2 ^ ((Format.single.parts magnitude).2 - 149) *
        5 ^ (149 - (Format.single.parts magnitude).2),
      -((149 - (Format.single.parts magnitude).2 : Nat) : Int)⟩ := rfl

/-- The leading digit of a number stands within the range that is not cut off. -/
theorem point_exact (finite : magnitude < Format.single.infinity) :
    (Format.single.exact magnitude).point ≤ 149 ∧ -149 ≤ (Format.single.exact magnitude).point := by
  have exponent := lt_254 finite
  have short := (digits_parts magnitude).1.short
  have first : 0 < digitCount (Format.single.exact magnitude).digits := Nat.length_toDigits_pos
  have last : digitCount (Format.single.exact magnitude).digits ≤
      149 + (149 - (Format.single.parts magnitude).2) := by
    refine (Nat.length_toDigits_le_iff (by decide) (by omega)).mpr ?_
    have whole : (Format.single.parts magnitude).1 * 2 ^ ((Format.single.parts magnitude).2 - 149) <
        10 ^ 149 :=
      calc _ < 2 ^ 24 * 2 ^ ((Format.single.parts magnitude).2 - 149) :=
            Nat.mul_lt_mul_of_pos_right short (Nat.two_pow_pos _)
        _ ≤ 2 ^ 24 * 2 ^ 104 := Nat.mul_le_mul_left _ (Nat.pow_le_pow_right (by decide) (by omega))
        _ ≤ 10 ^ 149 := by norm_num
    rw [exact_eq, Nat.pow_add]
    exact Nat.mul_lt_mul_of_lt_of_le whole (Nat.pow_le_pow_left (by decide) _)
      (Nat.pow_pos (by decide))
  unfold Decimal.point
  generalize digitCount (Format.single.exact magnitude).digits = count at first last ⊢
  rw [exact_eq]
  dsimp only
  omega

/-- All digits of a number read back to it. -/
theorem ofDecimal_exact (finite : magnitude < Format.single.infinity) :
    Format.single.ofDecimal (Format.single.exact magnitude) = magnitude := by
  obtain ⟨low, high⟩ := point_exact finite
  obtain ⟨⟨-, full⟩, spelt⟩ := digits_parts magnitude
  by_cases empty : (Format.single.exact magnitude).digits = 0
  · rw [exact_eq] at empty
    have digits : (Format.single.parts magnitude).1 = 0 := by
      by_contra some
      exact Nat.mul_ne_zero (Nat.mul_ne_zero some (Nat.two_pow_pos _).ne')
        (Nat.pow_pos (by decide)).ne' empty
    have zero : magnitude = 0 := by
      rcases Nat.eq_zero_or_pos (Format.single.parts magnitude).2 with lowest | higher
      · rw [spelt, digits, lowest, Nat.zero_mul]
      · have := full higher
        omega
    rw [zero]
    rfl
  · unfold Format.ofDecimal
    rw [if_neg empty, if_neg (by change ¬ ((149 : Nat) : Int) < _; omega),
      if_neg (by change ¬ _ < -((149 : Nat) : Int); omega)]
    refine round_extent (Decimal.fraction_pos _) finite ?_
    unfold extent Decimal.fraction
    rw [exact_eq]
    generalize Format.single.parts magnitude = p
    obtain ⟨m, e⟩ := p
    have powers : e - 149 + 149 = e + (149 - e) := by omega
    have whole : (-((149 - e : Nat) : Int)).toNat = 0 := by omega
    have places : (- -((149 - e : Nat) : Int)).toNat = 149 - e := by omega
    dsimp only
    rw [whole, places]
    change m * 2 ^ (e - 149) * 5 ^ (149 - e) * 10 ^ 0 * 2 ^ 149 = m * 2 ^ e * 10 ^ (149 - e)
    calc m * 2 ^ (e - 149) * 5 ^ (149 - e) * 10 ^ 0 * 2 ^ 149
        = m * 2 ^ (e - 149 + 149) * 5 ^ (149 - e) := by
          rw [Nat.pow_zero, Nat.mul_one, Nat.mul_right_comm, Nat.mul_assoc m, ← Nat.pow_add]
      _ = m * 2 ^ e * (2 ^ (149 - e) * 5 ^ (149 - e)) := by
          rw [powers, Nat.pow_add, ← Nat.mul_assoc m, Nat.mul_assoc]
      _ = m * 2 ^ e * 10 ^ (149 - e) := by rw [← Nat.mul_pow]

/-- Digits are given up only where what is left reads back. -/
theorem ofDecimal_shorten {whole : Decimal} (f : Format) (reads : f.ofDecimal whole = magnitude)
    (drop : Nat) : f.ofDecimal (f.shorten magnitude whole drop) = magnitude := by
  induction drop with
  | zero => exact reads
  | succ drop ih =>
    unfold Format.shorten
    dsimp only
    split <;>
    · split
      case isTrue hit => exact hit
      case isFalse =>
        split
        case isTrue hit => exact hit
        case isFalse => exact ih

theorem ofDecimal_shortest (finite : magnitude < Format.single.infinity) :
    Format.single.ofDecimal (Format.single.shortest magnitude) = magnitude := by
  unfold Format.shortest
  dsimp only
  rw [Decimal.ofDecimal_trim, ofDecimal_shorten _ (ofDecimal_exact finite)]

end Exact
end SwarmEvolution.Number
