import SwarmEvolution.Proofs.Evolution.Heredity
import SwarmEvolution.Proofs.Swarm.Evaluating

/-! Results are never stale: the ways to copy, change, evaluate and select individuals never leave
one with results that belong to another genotype or another swarm size. -/
namespace SwarmEvolution

open Sampling Draw Breeding

/-- Nothing is known of an individual. -/
def Individual.Unknown (i : Individual) : Prop :=
  i.fitness = none ∧ i.errors = [] ∧ i.trajectory = none

/-- The results of an individual are those of one evaluation of its genotype and swarm size. -/
def Individual.Known (e : Evaluator) (i : Individual) : Prop :=
  ∃ seed, ∀ j : Individual, j.genotype = i.genotype → j.swarmSize = i.swarmSize →
    i.fitness = some (e.evaluate j seed).fitness ∧ i.errors = (e.evaluate j seed).errors ∧
      i.trajectory = (e.evaluate j seed).trajectory

/-- The results of an individual are not stale. -/
def Individual.Current (e : Evaluator) (i : Individual) : Prop := i.Unknown ∨ i.Known e

namespace Individual

variable {e : Evaluator} {i : Individual}

theorem ofProgram_unknown (p : Program) : (ofProgram p).Unknown := ⟨rfl, rfl, rfl⟩

theorem invalidate_unknown (i : Individual) : i.invalidate.Unknown := ⟨rfl, rfl, rfl⟩

theorem setProgram_unknown (i : Individual) (p : Program) : (i.setProgram p).Unknown :=
  invalidate_unknown _

/-- The trajectory of an older evaluation is not kept, as a new one comes with a trajectory too. -/
theorem apply_known (current : i.Current e) (seed : UInt64) :
    (i.apply (e.evaluate i seed)).Known e := by
  refine ⟨seed, fun j genotype swarmSize => ?_⟩
  rw [e.evaluate_congr (i := j) (j := i) genotype swarmSize]
  refine ⟨rfl, rfl, ?_⟩
  cases recorded : (e.evaluate i seed).trajectory with
  | some t => simp [apply, recorded]
  | none =>
    -- The old trajectory stays, so there must not be one: an evaluation that led to the old
    -- results would have come without a trajectory too.
    have old : i.trajectory = none := by
      rcases current with unknown | ⟨before, known⟩
      · exact unknown.2.2
      · have same := (e.evaluate_trajectory i before).trans (e.evaluate_trajectory i seed).symm
        rw [(known i rfl rfl).2.2]
        simpa [recorded] using same
    simp [apply, recorded, old]

end Individual

namespace Breeder

variable {b : Breeder} {population : List Individual}

/-- No result in a population is stale. -/
def Fresh (b : Breeder) (population : List Individual) : Prop :=
  ∀ i ∈ population, i.Current b.evaluator

theorem newborn_unknown (b : Breeder) : b.newborn.Always Individual.Unknown := by
  refine always_bind fun p => ?_
  dsimp only
  split
  · exact always_bind fun _ => always_pure (Individual.ofProgram_unknown p)
  · exact always_pure (Individual.ofProgram_unknown p)

theorem current_hereditary (b : Breeder) : b.Hereditary (·.Current b.evaluator) where
  blank _ := .inl (Individual.ofProgram_unknown _)
  newborn := b.newborn_unknown.mono fun _ unknown => .inl unknown
  setProgram _ _ := .inl (Individual.setProgram_unknown _ _)
  resized _ _ _ := .inl (Individual.invalidate_unknown _)
  evaluated seed current := .inr (Individual.apply_known current seed)

theorem pick_current (fresh : b.Fresh population) (index : Nat) :
    (Breeding.pick population index).Current b.evaluator :=
  Breeding.pick_holds (.inl (Individual.ofProgram_unknown _)) fresh index

end Breeder

end SwarmEvolution
