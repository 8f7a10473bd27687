import SwarmEvolution.Fitness
import SwarmEvolution.Proofs.Number.Patterns

/-! The order of single-precision numbers. Bit patterns spell whole numbers, and comparing two
numbers is comparing those: the comparison is false when one side is no number, and in all other
respects a linear order, in which zeros of either sign are equal. -/
namespace SwarmEvolution.Number

open Float.Model

section Patterns

/-- The place of a pattern among the numbers; zeros of either sign have one place. -/
def placeOf (bits : Nat) : Int := (signOf bits).apply (magnitudeOf bits)

/-- The binade decides, and within one the digits. -/
theorem compare_binades {binade other mantissa mantissa' : Nat} (left : Digits binade mantissa)
    (right : Digits other mantissa') :
    (compare (binade - 149 : Int) (other - 149)).then (compare mantissa mantissa') =
      compare ((binade * 2 ^ 23 + mantissa : Nat) : Int) (other * 2 ^ 23 + mantissa' : Nat) := by
  obtain ⟨short, full⟩ := left
  obtain ⟨short', full'⟩ := right
  rcases Nat.lt_trichotomy binade other with less | rfl | greater
  · rw [Int.compare_eq_lt.mpr (by omega), Int.compare_eq_lt.mpr (by omega)]
    rfl
  · rw [Int.compare_eq_eq.mpr rfl]
    change compare mantissa mantissa' = _
    rcases Nat.lt_trichotomy mantissa mantissa' with less | rfl | greater
    · rw [Nat.compare_eq_lt.mpr less, Int.compare_eq_lt.mpr (by omega)]
    · rw [Nat.compare_eq_eq.mpr rfl, Int.compare_eq_eq.mpr rfl]
    · rw [Nat.compare_eq_gt.mpr greater, Int.compare_eq_gt.mpr (by omega)]
  · rw [Int.compare_eq_gt.mpr (by omega), Int.compare_eq_gt.mpr (by omega)]
    rfl

theorem compare_neg_neg (i j : Int) : compare (-i) (-j) = (compare i j).swap := by
  rw [Int.compare_swap]
  rcases Int.lt_trichotomy i j with less | rfl | greater
  · rw [Int.compare_eq_gt.mpr (by omega), Int.compare_eq_gt.mpr less]
  · rw [Int.compare_eq_eq.mpr rfl, Int.compare_eq_eq.mpr rfl]
  · rw [Int.compare_eq_lt.mpr (by omega), Int.compare_eq_lt.mpr greater]

/-- Numbers are compared by their places. -/
theorem compare_reads {a b : Nat} {x y : UnpackedFloat} (left : Reads a x) (right : Reads b y)
    (first : x.isNaN = false) (second : y.isNaN = false) :
    some (compare (placeOf a) (placeOf b)) = x.compare y := by
  have infinity : Format.single.infinity = 255 * 2 ^ 23 := rfl
  unfold placeOf
  cases left <;> cases right <;> try contradiction
  case finite.finite mantissa _ positive binade scale digits spelt _ mantissa' _ positive' other
      scale' digits' spelt' _ =>
    have same := compare_binades digits digits'
    subst scale scale'
    rw [spelt, spelt']
    cases signOf a <;> cases signOf b <;>
      simp only [UnpackedFloat.compare, UnpackedFloat.Sign.apply, Option.some.injEq,
        Int.compare_eq_lt, Int.compare_eq_gt, compare_neg_neg, same]
    all_goals omega
  case infinity.infinity last last' =>
    rw [last, last']
    cases signOf a <;> cases signOf b <;> rfl
  all_goals
    cases signOf a <;> cases signOf b <;>
      simp only [UnpackedFloat.compare, UnpackedFloat.Sign.apply, Option.some.injEq,
        Int.compare_eq_lt, Int.compare_eq_gt, Int.compare_eq_eq]
    all_goals omega

end Patterns

section Comparison

variable {x y z : Float32}

/-- The place of a number among the numbers. -/
def place (x : Float32) : Int := placeOf x.toBits.toNat

theorem isNaN_of_compare {u v : UnpackedFloat} {o : Ordering} (ordered : u.compare v = some o) :
    u.isNaN = false ∧ v.isNaN = false := by
  cases u with
  | notANumber => contradiction
  | _ => cases v with
    | notANumber => contradiction
    | _ => exact ⟨rfl, rfl⟩

theorem compare_eq_some_iff {o : Ordering} :
    x.toModel.unpack.compare y.toModel.unpack = some o ↔
      x.isNaN = false ∧ y.isNaN = false ∧ compare (place x) (place y) = o := by
  have compared (first : x.isNaN = false) (second : y.isNaN = false) :=
    compare_reads (reads_unpack x.toBits.toBitVec) (reads_unpack y.toBits.toBitVec) first second
  constructor
  · intro ordered
    obtain ⟨first, second⟩ := isNaN_of_compare ordered
    exact ⟨first, second, Option.some.inj ((compared first second).trans ordered)⟩
  · rintro ⟨first, second, ordered⟩
    exact (compared first second).symm.trans (congrArg some ordered)

/-- What is no number is less than nothing, and nothing is less than it. -/
theorem lt_iff : x < y ↔ x.isNaN = false ∧ y.isNaN = false ∧ place x < place y := by
  have defined : x < y ↔ x.toModel.unpack.compare y.toModel.unpack = some .lt := by
    change decide (x.toModel.unpack.lt y.toModel.unpack = true) = true ↔ _
    rw [decide_eq_true_iff]
    exact beq_iff_eq
  rw [defined, compare_eq_some_iff, Int.compare_eq_lt]

theorem le_iff : x ≤ y ↔ x.isNaN = false ∧ y.isNaN = false ∧ place x ≤ place y := by
  have defined : x ≤ y ↔ ∃ o, x.toModel.unpack.compare y.toModel.unpack = some o ∧ o.isLE := by
    change decide (x.toModel.unpack.le y.toModel.unpack = true) = true ↔ _
    rw [decide_eq_true_iff]
    exact Option.any_eq_true ..
  rw [defined]
  constructor
  · rintro ⟨o, ordered, atMost⟩
    obtain ⟨first, second, rfl⟩ := compare_eq_some_iff.mp ordered
    exact ⟨first, second, Int.isLE_compare.mp atMost⟩
  · rintro ⟨first, second, atMost⟩
    exact ⟨_, compare_eq_some_iff.mpr ⟨first, second, rfl⟩, Int.isLE_compare.mpr atMost⟩

theorem beq_iff : x == y ↔ x.isNaN = false ∧ y.isNaN = false ∧ place x = place y := by
  have defined : x == y ↔ x.toModel.unpack.compare y.toModel.unpack = some .eq := by
    change x.toModel.unpack.beq y.toModel.unpack = true ↔ _
    exact beq_iff_eq
  rw [defined, compare_eq_some_iff, Int.compare_eq_eq]

theorem not_lt_iff (first : x.isNaN = false) (second : y.isNaN = false) : ¬ x < y ↔ y ≤ x := by
  rw [lt_iff, le_iff]
  constructor
  · intro other
    exact ⟨second, first, Int.not_lt.mp fun less => other ⟨first, second, less⟩⟩
  · rintro ⟨-, -, atMost⟩ ⟨-, -, less⟩
    omega

protected theorem le_refl (number : x.isNaN = false) : x ≤ x :=
  le_iff.mpr ⟨number, number, Int.le_refl _⟩

protected theorem le_trans (first : x ≤ y) (second : y ≤ z) : x ≤ z := by
  obtain ⟨left, -, below⟩ := le_iff.mp first
  obtain ⟨-, right, above⟩ := le_iff.mp second
  exact le_iff.mpr ⟨left, right, Int.le_trans below above⟩

theorem le_of_not_le (first : x.isNaN = false) (second : y.isNaN = false) (other : ¬ x ≤ y) :
    y ≤ x := by
  rw [le_iff] at other ⊢
  exact ⟨second, first, Int.le_of_lt (Int.not_le.mp fun below => other ⟨first, second, below⟩)⟩

/-- The order of bit patterns refines the one of numbers. -/
theorem rank_lt_of_lt (less : x < y) : rank x.toBits < rank y.toBits := by
  obtain ⟨-, -, places⟩ := lt_iff.mp less
  have left := x.toBits.toNat_lt
  have right := y.toBits.toNat_lt
  have sign : Format.single.signBit = 2147483648 := rfl
  simp only [place, placeOf, signOf, magnitudeOf, rank, sign] at places ⊢
  split at places <;> split at places <;> simp only [UnpackedFloat.Sign.apply] at places <;>
    split <;> omega

end Comparison
end SwarmEvolution.Number

namespace SwarmEvolution

theorem Fitness.rank_lt_of_value_lt {f g : Fitness} (less : f.value < g.value) :
    f.rank < g.rank := by
  obtain ⟨first, second, -⟩ := Number.lt_iff.mp less
  have ranks := Number.rank_lt_of_lt less
  rw [value, value, Number.toBits_ofBits (Number.isNaN_ofBits_iff.mp first),
    Number.toBits_ofBits (Number.isNaN_ofBits_iff.mp second)] at ranks
  exact ranks

end SwarmEvolution
