import SwarmEvolution.Proofs.Code.Random
import SwarmEvolution.Proofs.Evolution.Stages
import SwarmEvolution.Proofs.Settings.Validity

/-! The sizes of programs stay bounded over whole runs: whatever is bred, no individual outgrows
both the limit of breeding and that of random code. -/
namespace SwarmEvolution

open Sampling Draw

/-- An individual with one program, which is a list at its root and has at most so many points. -/
def Individual.WithinPoints (limit : Nat) (i : Individual) : Prop :=
  ∃ p, i.genotype = .single p ∧ p.toCode.isList ∧ p.points ≤ limit

namespace Individual

variable {limit : Nat} {i : Individual} {p : Program}

theorem withinPoints_ofProgram (small : p.points ≤ limit) : (ofProgram p).WithinPoints limit :=
  ⟨p, rfl, rfl, small⟩

theorem withinPoints_setProgram (i : Individual) (small : p.points ≤ limit) :
    (i.setProgram p).WithinPoints limit := ⟨p, rfl, rfl, small⟩

theorem WithinPoints.points_program (within : i.WithinPoints limit) :
    i.program.points ≤ limit := by
  obtain ⟨p, single, -, small⟩ := within
  rw [program, single]
  exact small

end Individual

namespace Breeder

variable {b : Breeder}

/-- The larger one of the two limits that the settings put on programs. -/
def pointLimit (b : Breeder) : Nat := max b.settings.maxPoints b.settings.maxRandomCodeSize

theorem newborn_withinPoints (roomy : 2 ≤ b.settings.maxPoints) :
    b.newborn.Always (·.WithinPoints b.pointLimit) := by
  refine (b.vocabulary.randomProgram_points _).bind fun p size => ?_
  have small : p.points ≤ b.pointLimit := by
    unfold pointLimit
    omega
  dsimp only
  split
  · exact always_bind fun _ => always_pure (Individual.withinPoints_ofProgram small)
  · exact always_pure (Individual.withinPoints_ofProgram small)

theorem withinPoints_hereditary (roomy : 2 ≤ b.settings.maxPoints) :
    b.Hereditary (·.WithinPoints b.pointLimit) where
  blank _ := Individual.withinPoints_ofProgram (by
    have : b.settings.maxPoints ≤ b.pointLimit := Nat.le_max_left ..
    change 1 ≤ _
    omega)
  newborn := newborn_withinPoints roomy
  setProgram {i p} within fits := by
    refine i.withinPoints_setProgram ?_
    rcases fits with limited | smaller
    · exact Nat.le_trans limited (Nat.le_max_left ..)
    · exact Nat.le_trans smaller within.points_program
  resized _ _ within := within
  evaluated _ within := within

/-- At no point of a run is there an individual that is more than one program, or whose program has
a bare atom at its root or more points than both limits allow. -/
theorem run_withinPoints (b : Breeder) (valid : b.settings.validate = .ok ()) (random : Stream) :
    (∀ stage ∈ b.stages random, ∀ population, stage.Passing population →
      ∀ i ∈ population, i.WithinPoints (max b.settings.maxPoints b.settings.maxRandomCodeSize)) ∧
      ∀ i ∈ (b.run random).1.population,
        i.WithinPoints (max b.settings.maxPoints b.settings.maxRandomCodeSize) := by
  have roomy := Settings.Evolution.two_le_maxPoints valid
  have all := (withinPoints_hereditary roomy).stages random
  constructor
  · intro stage member population passing
    exact passing.forall_mem (all stage member).1 (all stage member).2
  · obtain ⟨stage, member, last⟩ := exists_last_stage b random
    exact last ▸ (all stage member).2

theorem pair_withinPoints : pair.settings.validate = .ok () ∧
    ∀ i ∈ (pair.run (.ofSeed 0)).1.population, i.WithinPoints 100 := by
  have valid : pair.settings.validate = .ok () := by decide +kernel
  exact ⟨valid, (run_withinPoints pair valid (.ofSeed 0)).2⟩

end Breeder
end SwarmEvolution
