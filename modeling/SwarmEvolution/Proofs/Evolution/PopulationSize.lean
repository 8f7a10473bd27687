import SwarmEvolution.Evolution.Run
import SwarmEvolution.Proofs.Breeding.Groups

/-! Populations keep their size in both ways of breeding, and are evaluated as a whole. -/
namespace SwarmEvolution.Breeder

open Sampling Draw Breeding

variable {b : Breeder} {population : List Individual}

theorem firstGeneration_length :
    b.firstGeneration.Always fun population => population.length = b.settings.populationSize :=
  times_length _ _

theorem breedStandard_length (nonempty : 0 < population.length) :
    (b.breedStandard population).Always fun next => next.length = population.length := by
  refine always_bind fun elite => (times_length _ _).bind fun children others => always_pure ?_
  rw [List.length_cons, others]
  omega

theorem crowd_length (parents : List Individual) :
    (b.crowd parents).Always fun survivors => survivors.length = parents.length := by
  refine always_bind fun bred => always_bind fun tested => ?_
  refine (selectSurvivors_length parents tested).bind fun survivors remaining => ?_
  exact (each_length b.perhapsSimplify survivors).mono fun next same => same.trans remaining

/-- Every group gets one seed. -/
theorem seeded_parents (groups : List (List Individual)) :
    (seeded groups).Always fun jobs => jobs.map (·.1) = groups := by
  have kept : (seeded groups).Always fun jobs => jobs.map (·.1) = groups.map id :=
    each_map fun group _ => always_bind fun _ => always_pure rfl
  simpa using kept

theorem breedCrowding_length :
    (b.breedCrowding population).Always fun next => next.length = population.length := by
  refine (parentGroups_perm _ _).bind fun groups split => ?_
  refine (seeded_parents _).bind fun jobs parents => always_pure ?_
  have survivors (job : List Individual × UInt64) :
      (Draw.withSeed job.2 (b.crowd job.1)).length = job.1.length :=
    (crowd_length job.1).withSeed job.2
  rw [takeGroups_whole split] at parents
  calc
    (jobs.flatMap fun job => Draw.withSeed job.2 (b.crowd job.1)).length
      = ((jobs.map (·.1)).map List.length).sum := by
        simp only [List.length_flatMap, survivors, List.map_map, Function.comp_def]
    _ = groups.flatten.length := by
        simp only [parents, List.map_map, Function.comp_def, List.length_map, List.length_flatten]
    _ = population.length := by rw [split.length_eq, List.length_range]

theorem breed_length (nonempty : 0 < population.length) :
    (b.breed population).Always fun next => next.length = population.length := by
  unfold breed
  split
  · exact breedStandard_length nonempty
  · exact breedCrowding_length

theorem evaluateAll_length (all : Bool) (population : List Individual) :
    (b.evaluateAll all population).Always fun evaluated =>
      evaluated.length = population.length ∧ ∀ i ∈ evaluated, i.isEvaluated := by
  refine (each_length _ _).bind fun seeds many => always_pure ?_
  constructor
  · rw [List.length_zipWith, many, Nat.min_self]
  · intro i member
    obtain ⟨k, below, rfl⟩ := List.mem_iff_getElem.mp member
    rw [List.getElem_zipWith]
    split
    · rfl
    · rename_i kept
      simp at kept
      exact kept.2

end SwarmEvolution.Breeder
