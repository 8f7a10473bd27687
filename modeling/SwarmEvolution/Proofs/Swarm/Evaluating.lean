import SwarmEvolution.Proofs.Swarm.History

/-! What an evaluation depends on. It sees the genotype and the swarm size of an individual and
nothing else, and whether it comes with a trajectory is up to the evaluator alone. -/
namespace SwarmEvolution

open Sampling Draw

namespace Swarm

variable {c : Course}

/-- A trajectory is recorded to the end when it is begun. -/
theorem run_trajectory (start? : Nat → Option Point) (size moves : Nat) (record : Bool) :
    (run c start? size moves record).Always (·.trajectory.isSome = record) := by
  have opened : (opening c start? size moves record).Always (·.trajectory.isSome = record) :=
    always_bind fun _ => always_bind fun _ => always_pure (by cases record <;> rfl)
  have played : ∀ number best index s, s.trajectory.isSome = record →
      (turn c number best s index).Always (·.trajectory.isSome = record) :=
    fun number best index s same => turn_always number best index same fun _ _ _ => by
      simpa [afterTurn] using same
  exact run_always played opened

end Swarm

namespace Evaluator

variable (e : Evaluator)

/-- Which of the runs on a problem keep their trajectory. -/
def recorded (index : Nat) : List Bool :=
  (List.range e.optimisation.runs).map fun number => e.keepTrajectories && index = 0 && number = 0

theorem runsOn_recorded (i : Individual) (problem : Problem) (index : Nat) :
    (e.runsOn i problem index).Always fun outcomes =>
      outcomes.map (·.trajectory.isSome) = e.recorded index :=
  each_map fun _ _ => Swarm.run_trajectory _ _ _ _

/-- Whether an evaluation comes with a trajectory depends neither on the individual nor on the
seed. -/
theorem evaluate_trajectory (i : Individual) (seed : UInt64) :
    (e.evaluate i seed).trajectory.isSome =
      (e.problems.zipIdx.flatMap fun (_, index) => e.recorded index).any id := by
  have all : (each (fun (p, index) => e.runsOn i p index) e.problems.zipIdx).Always fun outcomes =>
      outcomes.map (List.map (·.trajectory.isSome)) =
        e.problems.zipIdx.map fun (_, index) => e.recorded index :=
    each_map fun (p, index) _ => e.runsOn_recorded i p index
  have flags := all (Stream.ofSeed seed)
  rw [List.flatMap_def, ← flags, ← List.map_flatten, List.any_map]
  exact List.isSome_findSome?

theorem evaluate_congr {i j : Individual} (genotype : i.genotype = j.genotype)
    (swarmSize : i.swarmSize = j.swarmSize) (seed : UInt64) :
    e.evaluate i seed = e.evaluate j seed := by
  unfold evaluate runsOn run Evaluator.swarmSize
  rw [genotype, swarmSize]

end Evaluator
end SwarmEvolution
