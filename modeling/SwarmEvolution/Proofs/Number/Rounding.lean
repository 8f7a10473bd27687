import SwarmEvolution.Proofs.Number.Order

/-! Rounding to the nearest number does not cross a number that has no more digits than there are
places, so that bounds on what is rounded are bounds on the outcome. -/
namespace SwarmEvolution.Number

theorem halfEven_le_of_lt {num den k : Nat} (bound : 2 * num < (2 * k + 1) * den) :
    Format.halfEven num den ≤ k := by
  have whole := Nat.div_add_mod num den
  rw [Nat.add_mul, Nat.mul_assoc, Nat.one_mul] at bound
  have quotient : num / den < k + 1 := by
    refine Nat.div_lt_of_lt_mul ?_
    rw [Nat.mul_comm, Nat.add_mul]
    omega
  rcases Nat.lt_or_eq_of_le (Nat.le_of_lt_succ quotient) with less | same
  · exact Nat.le_trans (halfEven_le ..) less
  · rw [same, Nat.mul_comm] at whole
    have down : 2 * (num % den) < den := by omega
    unfold Format.halfEven
    dsimp only
    rw [if_pos down]
    exact Nat.le_of_eq same

theorem div_le_halfEven (num den : Nat) : num / den ≤ Format.halfEven num den := by
  unfold Format.halfEven
  dsimp only
  split
  · exact Nat.le_refl _
  · split <;> omega

section Rounding

variable {num den digits power : Nat}

theorem halfEven_mul {k : Nat} (positive : 0 < den) : Format.halfEven (k * den) den = k := by
  unfold Format.halfEven
  dsimp only
  rw [Nat.mul_mod_left, Nat.mul_div_left k positive, if_pos (by omega)]

theorem spacing_le {places : Nat} (some : 0 < places) (below : num / den < 2 ^ (places + power)) :
    (num / den).log2 + 1 - places ≤ power := by
  rcases Nat.eq_zero_or_pos (num / den) with zero | positive
  · rw [zero, Nat.log2_zero]
    omega
  · have exponent := (Nat.log2_lt (Nat.ne_of_gt positive)).mpr below
    omega

/-- A number with a digit too few for its places lies below the next power. -/
theorem div_lt_two_pow {places : Nat} (short : digits < 2 ^ places)
    (bound : num < (digits + 1) * 2 ^ power * den) : num / den < 2 ^ (places + power) := by
  refine Nat.div_lt_of_lt_mul (Nat.lt_of_lt_of_le bound ?_)
  rw [Nat.pow_add, Nat.mul_comm den]
  exact Nat.mul_le_mul_right _ (Nat.mul_le_mul_right _ short)

theorem halfEven_le_of_le {unit rest : Nat} (positive : 0 < den)
    (bound : num ≤ digits * 2 ^ (rest + unit) * den) :
    Format.halfEven num (den * 2 ^ unit) ≤ digits * 2 ^ rest := by
  have scaled : num ≤ digits * 2 ^ rest * (den * 2 ^ unit) := by
    rwa [Nat.mul_comm den, ← Nat.mul_assoc, Nat.mul_assoc digits, ← Nat.pow_add]
  have spacing : 0 < den * 2 ^ unit := Nat.mul_pos positive (Nat.two_pow_pos unit)
  refine halfEven_le_of_lt ?_
  rw [Nat.add_mul, Nat.mul_assoc]
  omega

/-- Rounding leaves at most one more digit than there are places. -/
theorem halfEven_le_two_pow {places : Nat} (positive : 0 < den) :
    Format.halfEven num (den * 2 ^ ((num / den).log2 + 1 - places)) ≤ 2 ^ places := by
  have below : num / den < 2 ^ ((num / den).log2 + 1) := Nat.lt_log2_self
  have powers : 2 ^ ((num / den).log2 + 1) ≤ 2 ^ (places + ((num / den).log2 + 1 - places)) :=
    Nat.pow_le_pow_right (by decide) (by omega)
  have whole : num < 2 ^ (places + ((num / den).log2 + 1 - places)) * den :=
    (Nat.div_lt_iff_lt_mul positive).mp (Nat.lt_of_lt_of_le below powers)
  rw [← Nat.one_mul (2 ^ places)]
  refine halfEven_le_of_le positive ?_
  rw [Nat.one_mul]
  exact Nat.le_of_lt whole

end Rounding

section Magnitudes

/-- What a magnitude stands for, counted in the finest spacing of single precision. -/
def extent (magnitude : Nat) : Nat :=
  let (m, e) := Format.single.parts magnitude
  m * 2 ^ e

theorem digits_parts (magnitude : Nat) :
    Digits (Format.single.parts magnitude).2 (Format.single.parts magnitude).1 ∧
      magnitude =
        (Format.single.parts magnitude).2 * 2 ^ 23 + (Format.single.parts magnitude).1 := by
  have binade : Format.single.binade = 2 ^ 23 := rfl
  simp only [Format.parts, binade]
  exact ⟨⟨by omega, by omega⟩, by omega⟩

theorem extent_mono {a b : Nat} (order : a ≤ b) : extent a ≤ extent b := by
  obtain ⟨⟨short, full⟩, spelt⟩ := digits_parts a
  obtain ⟨⟨short', full'⟩, spelt'⟩ := digits_parts b
  unfold extent
  generalize Format.single.parts a = p, Format.single.parts b = q at *
  obtain ⟨m, e⟩ := p
  obtain ⟨n, f⟩ := q
  dsimp only at *
  rcases Nat.lt_trichotomy e f with less | rfl | greater
  · have digits := full' (Nat.zero_lt_of_lt less)
    have powers : 2 ^ (e + 1) ≤ 2 ^ f := Nat.pow_le_pow_right (by decide) less
    calc m * 2 ^ e ≤ 2 ^ 24 * 2 ^ e := Nat.mul_le_mul_right _ (Nat.le_of_lt short)
      _ = 2 ^ 23 * 2 ^ (e + 1) := by
          rw [Nat.pow_succ]
          omega
      _ ≤ n * 2 ^ f := Nat.mul_le_mul digits powers
  · exact Nat.mul_le_mul_right _ (by omega)
  · have digits := full (Nat.zero_lt_of_lt greater)
    omega

theorem round_eq (size den : Nat) : Format.single.round size den =
    min (((size * 2 ^ 149 / den).log2 + 1 - 24) * 2 ^ 23 +
      Format.halfEven (size * 2 ^ 149) (den * 2 ^ ((size * 2 ^ 149 / den).log2 + 1 - 24)))
      Format.single.infinity := by
  unfold Format.round
  rfl

/-- Twice the point in the middle between a magnitude and the next one. -/
def midpoint (magnitude : Nat) : Nat :=
  let (m, e) := Format.single.parts magnitude
  (2 * m + 1) * 2 ^ e

theorem rounded_le {num den magnitude : Nat} (positive : 0 < den)
    (bound : 2 * num < midpoint magnitude * den) :
    ((num / den).log2 + 1 - 24) * 2 ^ 23 +
      Format.halfEven num (den * 2 ^ ((num / den).log2 + 1 - 24)) ≤ magnitude := by
  obtain ⟨⟨short, full⟩, spelt⟩ := digits_parts magnitude
  unfold midpoint at bound
  generalize Format.single.parts magnitude = p at short full spelt bound
  obtain ⟨m, e⟩ := p
  dsimp only at short full spelt bound
  have next : num < (m + 1) * 2 ^ e * den := by
    rw [Nat.mul_assoc] at bound ⊢
    generalize 2 ^ e * den = d at bound ⊢
    rw [Nat.add_mul, Nat.mul_assoc] at bound
    rw [Nat.add_mul]
    omega
  have places := spacing_le (by decide) (div_lt_two_pow short next)
  have all : Format.halfEven num (den * 2 ^ ((num / den).log2 + 1 - 24)) ≤ 2 ^ 24 :=
    halfEven_le_two_pow positive
  generalize (num / den).log2 + 1 - 24 = unit at places all ⊢
  rcases Nat.lt_or_eq_of_le places with less | rfl
  · -- In a lower binade even one digit too many does not lead beyond the next one.
    have digits := full (Nat.zero_lt_of_lt less)
    omega
  · have kept : Format.halfEven num (den * 2 ^ unit) ≤ m := by
      refine halfEven_le_of_lt ?_
      rwa [Nat.mul_comm den, ← Nat.mul_assoc]
    omega

theorem mul_pow_add (m e k : Nat) : m * Nat.pow 2 (e + k) = m * 2 ^ e * 2 ^ k := by
  rw [Nat.mul_assoc, ← Nat.pow_add]
  rfl

/-- What is rounded up to a single-precision number lies in the middle to the next one at least. -/
theorem round_le {size magnitude finer : Nat} (bound : 2 * size < midpoint magnitude * 2 ^ finer) :
    Format.single.round size (Nat.pow 2 (finer + 149)) ≤ magnitude := by
  rw [round_eq]
  refine Nat.le_trans (Nat.min_le_left ..) (rounded_le (Nat.two_pow_pos _) ?_)
  rw [mul_pow_add, ← Nat.mul_assoc]
  exact Nat.mul_lt_mul_of_pos_right bound (Nat.two_pow_pos 149)

theorem round_le_infinity (size den : Nat) :
    Format.single.round size den ≤ Format.single.infinity := by
  rw [round_eq]
  exact Nat.min_le_right ..

theorem extent_lt {magnitude : Nat} (small : magnitude < Format.single.infinity) (finer : Nat) :
    2 * (extent magnitude * 2 ^ finer) < 2 ^ (279 + finer) := by
  obtain ⟨⟨short, -⟩, spelt⟩ := digits_parts magnitude
  have infinity : Format.single.infinity = 255 * 2 ^ 23 := rfl
  unfold extent
  generalize Format.single.parts magnitude = p at short spelt
  obtain ⟨m, e⟩ := p
  dsimp only at short spelt ⊢
  calc 2 * (m * 2 ^ e * 2 ^ finer) = m * 2 ^ (e + finer + 1) := by
        rw [Nat.pow_succ, Nat.pow_add, Nat.mul_comm 2, Nat.mul_assoc m, Nat.mul_assoc m]
    _ < 2 ^ 24 * 2 ^ (e + finer + 1) := Nat.mul_lt_mul_of_pos_right short (Nat.two_pow_pos _)
    _ = 2 ^ (24 + (e + finer + 1)) := (Nat.pow_add ..).symm
    _ ≤ 2 ^ (279 + finer) := Nat.pow_le_pow_right (by decide) (by omega)

/-- A single-precision number of one sign has at most a given magnitude. -/
structure UpTo (side : Bool) (magnitude : Nat) (x : Float32) : Prop where
  number : x.isNaN = false
  within : decide (Format.single.signBit ≤ x.toBits.toNat) = side →
    magnitudeOf x.toBits.toNat ≤ magnitude

variable {x : Float32}

/-- The largest number stands right before infinity. -/
theorem upTo_of_le_largest (low : x ≤ largest) : UpTo false (Format.single.infinity - 1) x := by
  have last : place largest = (Format.single.infinity - 1 : Nat) := by decide
  obtain ⟨number, -, places⟩ := le_iff.mp low
  rw [last, place, placeOf, signOf] at places
  refine ⟨number, fun positive => ?_⟩
  rw [if_pos (Nat.not_le.mp (of_decide_eq_false positive))] at places
  exact Int.ofNat_le.mp places

theorem upTo_of_not_lt_zero (number : x.isNaN = false) (above : ¬ x < 0) : UpTo true 0 x := by
  have zero : place 0 = 0 := by decide
  obtain ⟨-, -, places⟩ := le_iff.mp ((not_lt_iff number (by decide)).mp above)
  rw [zero, place, placeOf, signOf] at places
  refine ⟨number, fun negative => ?_⟩
  rw [if_neg (Nat.not_lt.mpr (of_decide_eq_true negative))] at places
  exact Int.ofNat_le.mp (Int.neg_nonneg.mp places)

end Magnitudes

end SwarmEvolution.Number
