import Mathlib
import SwarmEvolution.Machine.Run
import SwarmEvolution.Proofs.Machine.Completion
import SwarmEvolution.Proofs.Sampling.Bounds
import SwarmEvolution.Vocabulary

/-! Random integers, of `integer.rand` and of constants. The steps of a grid never lead beyond the
range that it is laid over, even if the range has more numbers than 32 bits can count. -/
namespace SwarmEvolution

open Sampling

/-- The range of random integers, and the distance between two of them. -/
def Settings.Machine.integerRange (s : Settings.Machine) : Int32 × Int32 × Int32 :=
  (s.minRandomInt, s.maxRandomInt, s.randomIntResolution)

namespace Machine

/-- The random integer so many steps above the least one. -/
def gridPoint (low resolution : Int32) (step : Nat) : Int32 :=
  low + Int32.ofNat step * max resolution 1

section Grid

variable {low high resolution : Int32} {step : Nat}

theorem integerSteps_pos (low high resolution : Int32) :
    0 < integerSteps low high resolution :=
  Int.lt_toNat.mpr (lt_max_of_lt_right Int.one_pos)

variable (ordered : low ≤ high) (positive : 1 ≤ resolution)

include ordered positive

/-- As many steps as fit into the range, or into 32 bits if the range is wider. -/
theorem integerSteps_eq : (integerSteps low high resolution : Int) =
    max (min (high.toInt - low.toInt) 2147483647 / resolution.toInt) 1 := by
  have least : (1 : Int) ≤ resolution.toInt := Int32.le_iff_toInt_le.mp positive
  have range := Int32.le_iff_toInt_le.mp ordered
  unfold integerSteps
  dsimp only
  rw [max_eq_left (by omega : -2147483648 ≤ high.toInt - low.toInt), max_eq_left least,
    Int.tdiv_eq_ediv_of_nonneg (by omega)]
  exact Int.toNat_of_nonneg (le_max_of_le_right Int.one_nonneg)

theorem integerSteps_lt : integerSteps low high resolution < 2 ^ 31 := by
  have count := integerSteps_eq ordered positive
  have range := Int32.le_iff_toInt_le.mp ordered
  have quotient := Int.ediv_le_self resolution.toInt
    (by omega : 0 ≤ min (high.toInt - low.toInt) 2147483647)
  omega

/-- The steps end before the range does. -/
theorem step_mul_le (inside : step < integerSteps low high resolution) :
    step * resolution.toInt ≤ min (high.toInt - low.toInt) 2147483647 := by
  have count := integerSteps_eq ordered positive
  have range := Int32.le_iff_toInt_le.mp ordered
  have least : (1 : Int) ≤ resolution.toInt := Int32.le_iff_toInt_le.mp positive
  have quotient : 0 ≤ min (high.toInt - low.toInt) 2147483647 / resolution.toInt :=
    Int.ediv_nonneg (by omega) (by omega)
  calc step * resolution.toInt
      ≤ min (high.toInt - low.toInt) 2147483647 / resolution.toInt * resolution.toInt :=
        Int.mul_le_mul_of_nonneg_right (by omega) (by omega)
    _ ≤ min (high.toInt - low.toInt) 2147483647 := Int.ediv_mul_le _ (by omega)

/-- A random integer in exact arithmetic. The product and the sum that it is made of are the exact
ones, so neither of them wraps around. -/
structure OnGrid (low high resolution : Int32) (step : Nat) : Prop where
  count : (Int32.ofNat step).toInt = step
  product : (Int32.ofNat step * max resolution 1).toInt = step * resolution.toInt
  sum : (gridPoint low resolution step).toInt = low.toInt + step * resolution.toInt
  within : low ≤ gridPoint low resolution step ∧ gridPoint low resolution step ≤ high

theorem onGrid (inside : step < integerSteps low high resolution) :
    OnGrid low high resolution step := by
  have few := integerSteps_lt ordered positive
  have last := step_mul_le ordered positive inside
  have least : (1 : Int) ≤ resolution.toInt := Int32.le_iff_toInt_le.mp positive
  have some : 0 ≤ step * resolution.toInt := Int.mul_nonneg (Int.natCast_nonneg _) (by omega)
  have bottom := low.le_toInt
  have top := high.toInt_lt
  have unit : max resolution 1 = resolution := by
    change (if resolution ≤ 1 then 1 else resolution) = resolution
    split
    · exact Int32.le_antisymm positive ‹_›
    · rfl
  have count : (Int32.ofNat step).toInt = step := Int32.toInt_ofNat_of_lt (by omega)
  have product : (Int32.ofNat step * max resolution 1).toInt = step * resolution.toInt := by
    rw [unit, Int32.toInt_mul, count]
    exact Int.bmod_eq_of_le_mul_two (by omega) (by omega)
  have sum : (gridPoint low resolution step).toInt = low.toInt + step * resolution.toInt := by
    rw [gridPoint, Int32.toInt_add, product]
    exact Int.bmod_eq_of_le_mul_two (by omega) (by omega)
  refine ⟨count, product, sum, ?_, ?_⟩
  · rw [Int32.le_iff_toInt_le, sum]
    omega
  · rw [Int32.le_iff_toInt_le, sum]
    omega

end Grid

section Drawing

theorem perform_random (view : SwarmView) (m : Machine) :
    let (value, rest) := randomInteger m.settings.minRandomInt m.settings.maxRandomInt
      m.settings.randomIntResolution m.random
    perform view m (.integer .random) = { m with random := rest }.pushInteger value := by
  rw [perform, performWith_of_satisfies (by rfl)]
  rfl

theorem randomAtom_integer (v : Vocabulary) (random : Stream)
    (slot : v.slots[(Draw.below v.size random).1]? = some .integerConstant) :
    let (value, rest) := randomInteger v.settings.minRandomInt v.settings.maxRandomInt
      v.settings.randomIntResolution (Draw.below v.size random).2
    v.randomAtom random = (.atom (.integer value), rest) := by
  rw [Vocabulary.randomAtom, Draw.bind_apply, slot]
  rfl

/-- With this range, the instruction and the constants both make `value` from a stream of which they
leave the rest. A constant is made once its slot is drawn. -/
structure BothMake (range : Int32 × Int32 × Int32) (random rest : Stream) (value : Int32) :
    Prop where
  instruction : ∀ view (m : Machine), m.settings.integerRange = range → m.random = random →
    perform view m (.integer .random) = { m with random := rest }.pushInteger value
  constant : ∀ (v : Vocabulary) before, v.settings.integerRange = range →
    v.slots[(Draw.below v.size before).1]? = some .integerConstant →
    (Draw.below v.size before).2 = random → v.randomAtom before = (.atom (.integer value), rest)

theorem bothMake (low high resolution : Int32) (random : Stream) :
    BothMake (low, high, resolution) random
      (Draw.small (integerSteps low high resolution) random).2
      (gridPoint low resolution (Draw.small (integerSteps low high resolution) random).1) := by
  constructor
  · rintro view m range rfl
    obtain ⟨rfl, rfl, rfl⟩ : m.settings.minRandomInt = low ∧ m.settings.maxRandomInt = high ∧
        m.settings.randomIntResolution = resolution := by
      simpa [Settings.Machine.integerRange] using range
    exact perform_random view m
  · rintro v before range slot rfl
    obtain ⟨rfl, rfl, rfl⟩ : v.settings.minRandomInt = low ∧ v.settings.maxRandomInt = high ∧
        v.settings.randomIntResolution = resolution := by
      simpa [Settings.Machine.integerRange] using range
    exact randomAtom_integer v before slot

/-- There is at least one step to draw from, and no more than 32 bits can count. Each of them is
drawn from some stream, and it leads to a number of the range by operations that do not wrap around.
From one stream, the instruction and a constant take the same step. -/
theorem randomIntegers_stay_in_range {low high resolution : Int32} (ordered : low ≤ high)
    (positive : 1 ≤ resolution) :
    (0 < integerSteps low high resolution ∧ integerSteps low high resolution < 2 ^ 31) ∧
    (∀ step < integerSteps low high resolution, OnGrid low high resolution step ∧
      ∃ random, (Draw.small (integerSteps low high resolution) random).1 = step) ∧
    ∀ random, ∃ step < integerSteps low high resolution, ∃ rest,
      Draw.small (integerSteps low high resolution) random = (step, rest) ∧
      BothMake (low, high, resolution) random rest (gridPoint low resolution step) := by
  have some := integerSteps_pos low high resolution
  have few := integerSteps_lt ordered positive
  refine ⟨⟨some, few⟩, fun step inside => ?_, fun random => ?_⟩
  · exact ⟨onGrid ordered positive inside, Draw.exists_small inside (by omega)⟩
  · exact ⟨_, Draw.small_lt some random, _, rfl, bothMake low high resolution random⟩

/-- The vocabulary of integer constants alone, of all 32-bit integers. -/
def allIntegers : Vocabulary :=
  ⟨{ minRandomInt := Int32.minValue, maxRandomInt := Int32.maxValue }, [.integerConstant],
    List.cons_ne_nil _ _⟩

/-- The range of all integers has twice as many numbers as it has steps. -/
theorem allIntegers_stay_in_range :
    Int32.minValue ≤ Int32.maxValue ∧ (1 : Int32) ≤ 1 ∧
    ∃ step < 2147483647, OnGrid Int32.minValue Int32.maxValue 1 step ∧
      (allIntegers.randomAtom (.ofSeed 0)).1 = .atom (.integer (gridPoint Int32.minValue 1 step)) ∧
      ((perform .empty (ofStream allIntegers.settings (Draw.below 1 (.ofSeed 0)).2)
        (.integer .random)).stack .integer).top? = some (gridPoint Int32.minValue 1 step) := by
  have steps : integerSteps Int32.minValue Int32.maxValue 1 = 2147483647 := by decide
  obtain ⟨-, grid, drawn⟩ := randomIntegers_stay_in_range
    (by decide : Int32.minValue ≤ Int32.maxValue) (by decide : (1 : Int32) ≤ 1)
  obtain ⟨step, inside, rest, -, both⟩ := drawn (Draw.below 1 (.ofSeed 0)).2
  have slot : (Draw.below 1 (.ofSeed 0)).1 = 0 :=
    Nat.lt_one_iff.mp (Draw.below_lt Nat.one_pos (.ofSeed 0))
  refine ⟨by decide, by decide, step, steps ▸ inside, (grid step inside).1, ?_, ?_⟩
  · have made := both.constant allIntegers (.ofSeed 0) rfl
      ((congrArg (allIntegers.slots[·]?) slot).trans rfl) rfl
    rw [made]
  · rw [both.instruction .empty (ofStream allIntegers.settings _) rfl rfl]
    rfl

end Drawing

end Machine
end SwarmEvolution
