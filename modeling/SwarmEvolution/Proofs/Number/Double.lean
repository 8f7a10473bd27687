import SwarmEvolution.Number.Double
import SwarmEvolution.Proofs.Number.Rounding

/-! Bounds on sums and means in double precision. A bound looks at the numbers of one sign: a sum
that may only be infinite on one side is a number. Few terms keep to a multiple of their bound, and
a bound far beyond all terms absorbs any number of them. -/
namespace SwarmEvolution.Number.Double

section Rounding

variable {num den digits power : Nat}

theorem nearest_eq (num den : Nat) : nearest num den =
    Format.halfEven num (den * 2 ^ ((num / den).log2 + 1 - 53)) *
      2 ^ ((num / den).log2 + 1 - 53) := rfl

theorem nearest_whole (num : Nat) : nearest num 1 =
    Format.halfEven num (2 ^ (num.log2 + 1 - 53)) * 2 ^ (num.log2 + 1 - 53) := by
  rw [nearest_eq, Nat.div_one, Nat.one_mul]

/-- A number that has no more digits than there are places is not crossed. -/
theorem nearest_le (positive : 0 < den) (short : digits < 2 ^ 53)
    (bound : num ≤ digits * 2 ^ power * den) : nearest num den ≤ digits * 2 ^ power := by
  have next : num < (digits + 1) * 2 ^ power * den := by
    refine Nat.lt_of_le_of_lt bound (Nat.mul_lt_mul_of_pos_right ?_ positive)
    exact Nat.mul_lt_mul_of_pos_right (Nat.lt_succ_self _) (Nat.two_pow_pos power)
  have places := spacing_le (by decide) (div_lt_two_pow short next)
  rw [nearest_eq]
  generalize (num / den).log2 + 1 - 53 = unit at places ⊢
  obtain ⟨rest, rfl⟩ := Nat.exists_eq_add_of_le' places
  rw [Nat.pow_add, ← Nat.mul_assoc]
  exact Nat.mul_le_mul_right _ (halfEven_le_of_le positive bound)

/-- Where no digit is missing, what is rounded up lies in the middle to the next number at least. -/
theorem nearest_le_of_lt (positive : 0 < den) (full : 2 ^ 52 ≤ digits) (short : digits < 2 ^ 53)
    (bound : 2 * num < (2 * digits + 1) * 2 ^ power * den) :
    nearest num den ≤ digits * 2 ^ power := by
  by_cases low : num ≤ digits * 2 ^ power * den
  · exact nearest_le positive short low
  · have next : num < (digits + 1) * 2 ^ power * den := by
      rw [Nat.mul_assoc] at bound ⊢
      generalize 2 ^ power * den = d at bound ⊢
      rw [Nat.add_mul, Nat.mul_assoc] at bound
      rw [Nat.add_mul]
      omega
    have places := spacing_le (by decide) (div_lt_two_pow short next)
    have high : 2 ^ (52 + power) ≤ num / den := by
      rw [Nat.le_div_iff_mul_le positive, Nat.pow_add]
      refine Nat.le_trans (Nat.mul_le_mul_right _ ?_) (Nat.le_of_not_ge low)
      exact Nat.mul_le_mul_right _ full
    have some : 0 < num / den := Nat.lt_of_lt_of_le (Nat.two_pow_pos _) high
    have exponent := (Nat.le_log2 (Nat.ne_of_gt some)).mpr high
    have unit : (num / den).log2 + 1 - 53 = power := by omega
    rw [nearest_eq, unit]
    refine Nat.mul_le_mul_right _ (halfEven_le_of_lt ?_)
    rwa [Nat.mul_comm den, ← Nat.mul_assoc]

/-- What is added to a power of two is lost if it is less than half of the spacing there. -/
theorem nearest_absorbs {more : Nat} (small : 2 * more < 2 ^ power)
    (bound : num ≤ 2 ^ (52 + power) + more) : nearest num 1 ≤ 2 ^ (52 + power) := by
  by_cases low : num ≤ 2 ^ (52 + power)
  · rw [← Nat.one_mul (2 ^ (52 + power))]
    refine nearest_le Nat.one_pos (by decide) ?_
    rwa [Nat.one_mul, Nat.mul_one]
  · have spacing : 2 ^ (52 + power) = 2 ^ 52 * 2 ^ power := Nat.pow_add ..
    have exponent : num.log2 = 52 + power :=
      (Nat.log2_eq_iff (by omega)).mpr ⟨Nat.le_of_not_ge low, by rw [Nat.pow_succ]; omega⟩
    have unit : num.log2 + 1 - 53 = power := by omega
    rw [nearest_whole, unit, spacing]
    refine Nat.mul_le_mul_right _ (halfEven_le_of_lt ?_)
    rw [Nat.add_mul, Nat.mul_assoc, ← spacing]
    omega

theorem nearest_exact (short : digits < 2 ^ 53) :
    nearest (digits * 2 ^ power) 1 = digits * 2 ^ power := by
  have below : digits * 2 ^ power / 1 < 2 ^ (53 + power) := by
    rw [Nat.div_one, Nat.pow_add]
    exact Nat.mul_lt_mul_of_pos_right short (Nat.two_pow_pos power)
  have places : (digits * 2 ^ power / 1).log2 + 1 - 53 ≤ power := spacing_le (by decide) below
  rw [Nat.div_one] at places
  rw [nearest_whole]
  generalize (digits * 2 ^ power).log2 + 1 - 53 = unit at places ⊢
  obtain ⟨rest, rfl⟩ := Nat.exists_eq_add_of_le' places
  rw [Nat.pow_add, ← Nat.mul_assoc, halfEven_mul (Nat.two_pow_pos unit)]

theorem nearest_count {count : Nat} (short : count < 2 ^ 53) : nearest count 1 = count := by
  have exact : nearest (count * 2 ^ 0) 1 = count * 2 ^ 0 := nearest_exact short
  simpa using exact

theorem nearest_pos {count : Nat} (positive : 0 < count) : 0 < nearest count 1 := by
  have first : 2 ^ count.log2 ≤ count := Nat.log2_self_le (Nat.ne_of_gt positive)
  have unit : 2 ^ (count.log2 + 1 - 53) ≤ 2 ^ count.log2 :=
    Nat.pow_le_pow_right (by decide) (by omega)
  rw [nearest_whole]
  refine Nat.mul_pos (Nat.lt_of_lt_of_le ?_ (div_le_halfEven ..)) (Nat.two_pow_pos _)
  exact Nat.div_pos (Nat.le_trans unit first) (Nat.two_pow_pos _)

end Rounding

/-- A number of one sign has at most a given size. On the other side of zero every number will do,
infinity too. -/
inductive Bounded (side : Bool) (bound : Nat) : Double → Prop
  | finite {negative : Bool} {size : Nat} (within : negative = side → size ≤ bound) :
    Bounded side bound (.finite negative size)
  | infinite {negative : Bool} (other : negative ≠ side) : Bounded side bound (.infinite negative)

section Bounds

variable {side negative : Bool} {size bound one : Nat} {x y : Double}

theorem ofSize_bounded (range : bound < limit) (within : negative = side → size ≤ bound) :
    (ofSize negative size).Bounded side bound := by
  unfold ofSize
  by_cases inside : size < limit
  · rw [if_pos inside]
    exact .finite within
  · rw [if_neg inside]
    exact .infinite fun same => inside (Nat.lt_of_le_of_lt (within same) range)

theorem add_bounded {total : Nat} (range : total < limit)
    (rounds : ∀ num ≤ bound + one, nearest num 1 ≤ total) (left : x.Bounded side bound)
    (right : y.Bounded side one) : (x.add y).Bounded side total := by
  cases left with
  | @infinite s other =>
    cases right with
    | finite => exact .infinite other
    | @infinite t other' =>
      -- Infinities that are not on this side are both on the other one.
      have same : s = t := by
        revert other other'
        cases s <;> cases t <;> cases side <;> decide
      rw [add, if_pos same]
      exact .infinite other
  | @finite s m first =>
    cases right with
    | infinite other => exact .infinite other
    | @finite t n second =>
      rw [add]
      by_cases same : s = t
      · rw [if_pos same]
        refine ofSize_bounded range fun own => rounds _ ?_
        exact Nat.add_le_add (first own) (second (same ▸ own))
      rw [if_neg same]
      by_cases greater : n < m
      · rw [if_pos greater]
        refine ofSize_bounded range fun own => rounds _ ?_
        have size := first own
        omega
      rw [if_neg greater]
      by_cases less : m < n
      · rw [if_pos less]
        refine ofSize_bounded range fun own => rounds _ ?_
        have size := second own
        omega
      · rw [if_neg less]
        exact .finite fun _ => Nat.zero_le _

/-- A sum of terms that each stay within one bound, where `reach` bounds the first of them. -/
theorem sum_bounded (reach : Nat → Nat) {start : Double} {xs : List Double}
    (rounds : ∀ k < xs.length,
      reach (k + 1) < limit ∧ ∀ num ≤ reach k + one, nearest num 1 ≤ reach (k + 1))
    (first : start.Bounded side (reach 0)) (each : ∀ x ∈ xs, x.Bounded side one) :
    (sum start xs).Bounded side (reach xs.length) := by
  induction xs generalizing start reach with
  | nil => exact first
  | cons x xs ih =>
    obtain ⟨own, rest⟩ := List.forall_mem_cons.mp each
    have next := rounds 0 (Nat.succ_pos _)
    exact ih (fun k => reach (k + 1)) (fun k below => rounds (k + 1) (Nat.succ_lt_succ below))
      (add_bounded next.1 next.2 first own) rest

theorem dividedBy_bounded {total count : Nat} (range : total < limit)
    (rounds : ∀ num ≤ bound, nearest num (nearest count 1) ≤ total) (own : x.Bounded side bound) :
    (x.dividedBy count).Bounded side total := by
  cases own with
  | infinite other => exact .infinite other
  | finite within => exact ofSize_bounded range fun same => rounds _ (within same)

theorem two_pow_lt_limit {power : Nat} (range : power < 2098) : 2 ^ power < limit := by
  have grows : ∀ k, power < k → 2 ^ power < Nat.pow 2 k :=
    fun _ => Nat.pow_lt_pow_right (by decide)
  unfold limit
  apply grows
  exact range

/-- Terms that are small enough never carry a sum beyond a bound, however many there are. -/
theorem sum_absorbed {power : Nat} {start : Double} {xs : List Double} (range : power < 2046)
    (small : 2 * one < 2 ^ power) (first : start.Bounded side (2 ^ (52 + power)))
    (each : ∀ x ∈ xs, x.Bounded side one) : (sum start xs).Bounded side (2 ^ (52 + power)) := by
  have inside : 2 ^ (52 + power) < limit := two_pow_lt_limit (by omega)
  have rounds : ∀ num ≤ 2 ^ (52 + power) + one, nearest num 1 ≤ 2 ^ (52 + power) :=
    fun _ within => nearest_absorbs small within
  exact sum_bounded (fun _ => 2 ^ (52 + power)) (fun _ _ => ⟨inside, rounds⟩) first each

end Bounds

section Singles

variable {side : Bool} {magnitude size : Nat} {x : Float32}

theorem ofSingle_bounded (small : magnitude < Format.single.infinity)
    (own : UpTo side magnitude x) : (ofSingle x).Bounded side (extent magnitude * 2 ^ 925) := by
  obtain ⟨number, within⟩ := own
  rw [isNaN_eq_false_iff, magnitudeOf] at number
  unfold ofSingle
  dsimp only
  rw [if_neg (Nat.not_lt.mpr number)]
  split
  case isTrue last =>
    refine .infinite fun same => ?_
    have low := within same
    rw [magnitudeOf, last] at low
    exact Nat.not_lt.mpr low small
  case isFalse =>
    have finer : Format.double.lowest - Format.single.lowest = 925 := rfl
    refine .finite fun same => ?_
    rw [finer, mul_pow_add]
    exact Nat.mul_le_mul_right _ (extent_mono (within same))

theorem signed_spec (negative : Bool) (range : size ≤ Format.single.infinity) :
    (toSingle.signed negative size).isNaN = false ∧
      decide (Format.single.signBit ≤ (toSingle.signed negative size).toBits.toNat) = negative ∧
      magnitudeOf (toSingle.signed negative size).toBits.toNat = size := by
  have infinity : Format.single.infinity = 2139095040 := rfl
  have sign : Format.single.signBit = 2147483648 := rfl
  unfold toSingle.signed
  have value : (UInt32.ofNat ((if negative then Format.single.signBit else 0) + size)).toNat =
      (if negative then Format.single.signBit else 0) + size := by
    rw [UInt32.toNat_ofNat', sign]
    split <;> omega
  generalize UInt32.ofNat ((if negative then Format.single.signBit else 0) + size) = bits at value ⊢
  have own : magnitudeOf bits.toNat = size := by
    rw [value, magnitudeOf, sign]
    split <;> omega
  have number : magnitudeOf bits.toNat ≤ Format.single.infinity := own ▸ range
  rw [toBits_ofBits number]
  refine ⟨isNaN_ofBits_iff.mpr number, ?_, own⟩
  rw [value, sign]
  cases negative
  · simp
    omega
  · simp

theorem toSingle_number {y : Double} (number : y ≠ .notANumber) : y.toSingle.isNaN = false := by
  cases y with
  | notANumber => contradiction
  | infinite => exact (signed_spec _ (Nat.le_refl _)).1
  | finite => exact (signed_spec _ (round_le_infinity ..)).1

theorem toSingle_upTo {y : Double} {bound : Nat} (near : 2 * bound < midpoint magnitude * 2 ^ 925)
    (own : y.Bounded side bound) : UpTo side magnitude y.toSingle := by
  cases own with
  | @infinite negative other =>
    obtain ⟨number, sign, -⟩ := signed_spec negative (Nat.le_refl _)
    exact ⟨number, fun same => absurd (sign.symm.trans same) other⟩
  | @finite negative size within =>
    have finer : Format.double.lowest = 925 + 149 := rfl
    unfold toSingle
    rw [finer]
    obtain ⟨number, sign, whole⟩ := signed_spec negative
      (round_le_infinity size (Nat.pow 2 (925 + 149)))
    refine ⟨number, fun same => ?_⟩
    have small := within (sign.symm.trans same)
    have low := round_le (Nat.lt_of_le_of_lt (Nat.mul_le_mul_left 2 small) near)
    rw [whole]
    exact low

/-- A number is bounded on a side unless it is the infinity there. -/
theorem upTo_of_ne_infinite {side : Bool} (number : x.isNaN = false)
    (other : x ≠ (infinite side).toSingle) : UpTo side (Format.single.infinity - 1) x := by
  refine ⟨number, fun sign => ?_⟩
  by_contra beyond
  have most := isNaN_eq_false_iff.mp number
  have last : magnitudeOf x.toBits.toNat = Format.single.infinity := by omega
  obtain ⟨-, sign', last'⟩ := signed_spec side (Nat.le_refl Format.single.infinity)
  refine other (Float32.toBits_inj.mp (UInt32.toNat_inj.mp ?_))
  change x.toBits.toNat = (toSingle.signed side Format.single.infinity).toBits.toNat
  have left := x.toBits.toNat_lt
  have right := (toSingle.signed side Format.single.infinity).toBits.toNat_lt
  have signs := decide_eq_decide.mp (sign.trans sign'.symm)
  have same := last.trans last'.symm
  have word : Format.single.signBit = 2147483648 := rfl
  simp only [magnitudeOf, word] at same signs
  omega

end Singles

end SwarmEvolution.Number.Double
