import SwarmEvolution.Breeding.Crowding
import SwarmEvolution.Breeding.Operators
import SwarmEvolution.Breeding.Simplification

/-!
From one generation to the next: in the standard way the fittest individual survives and the others
are bred from tournaments; in crowding, random groups of parents compete with their own children.
-/
namespace SwarmEvolution

open Sampling Breeding

/-- All that breeding needs apart from chance. -/
structure Breeder where
  settings : Settings.Evolution
  optimisation : Settings.Optimisation
  vocabulary : Vocabulary
  evaluator : Evaluator

namespace Breeder

/-- The share of children that are mutants. -/
def mutationShare (b : Breeder) : Float32 :=
  b.settings.mutationPercent / (b.settings.crossoverPercent + b.settings.mutationPercent)

/-- A new individual; where swarm sizes are evolved it is given one. -/
def newborn (b : Breeder) : Draw Individual := do
  let i := Individual.ofProgram (← b.vocabulary.randomProgram b.settings.maxRandomCodeSize)
  if b.optimisation.evolveSwarmSize then
    let size := 1 + (← Draw.below (max b.optimisation.maxSwarmSize 2 - 1))
    return i.withSwarmSize size
  else return i

def firstGeneration (b : Breeder) : Draw (List Individual) :=
  Draw.times b.settings.populationSize b.newborn

def mutant (b : Breeder) (parent : Individual) : Draw Individual := do
  let child ← mutate b.vocabulary b.settings parent
  if b.optimisation.evolveSwarmSize then
    mutateSwarmSize child b.optimisation.maxSwarmSize b.optimisation.swarmSizeMutationRate
  else return child

/-- Simplifies an individual with the chance that the settings give. -/
def perhapsSimplify (b : Breeder) (i : Individual) : Draw Individual := do
  if (← Draw.unit) < b.settings.simplificationPercent / 100 then
    simplify b.evaluator.evaluate b.settings.simplifications i
  else return i

/-- A mutant of one winner of a tournament or a cross of two. -/
def tournamentChild (b : Breeder) (population : List Individual) : Draw Individual := do
  let winner : Draw Individual :=
    return pick population (← tournament population b.settings.tournamentSize)
  if (← Draw.unit) < b.mutationShare then b.mutant (← winner)
  else
    let first ← winner
    let second ← winner
    crossover first second b.settings.maxPoints

/-- The next generation by tournaments: the fittest individual first. -/
def breedStandard (b : Breeder) (population : List Individual) : Draw (List Individual) := do
  let elite ← b.perhapsSimplify (pick population (bestIndex population))
  let children ← Draw.times (population.length - 1) do
    b.perhapsSimplify (← b.tournamentChild population)
  return elite :: children

/-- As many children as parents, from one pair after another. -/
def children (b : Breeder) : List Individual → Draw (List Individual)
  | first :: second :: rest => do
    let pair ←
      if b.mutationShare ≤ (← Draw.unit) then
        let (x, y) ← crossoverPair first second b.settings.maxPoints
        pure [x, y]
      else Draw.each b.mutant [first, second]
    return pair ++ (← b.children rest)
  | [single] => return [← b.mutant single]
  | [] => return []

/-- Evaluates an individual with a seed that is drawn for it. -/
def tested (b : Breeder) (i : Individual) : Draw Individual :=
  return i.apply (b.evaluator.evaluate i (← Draw.wide))

/-- Breeds within one group of parents and fills their places. -/
def crowd (b : Breeder) (parents : List Individual) : Draw (List Individual) := do
  let bred ← b.children parents
  let tested ← Draw.each b.tested bred
  let survivors ← selectSurvivors parents tested
  Draw.each b.perhapsSimplify survivors

/-- Gives each group of parents a seed. -/
def seeded (groups : List (List Individual)) : Draw (List (List Individual × UInt64)) :=
  Draw.each (fun group => return (group, ← Draw.wide)) groups

/-- The next generation by crowding. Each group has a stream of its own, so the groups do not
depend on each other. -/
def breedCrowding (b : Breeder) (population : List Individual) : Draw (List Individual) := do
  let groups ← parentGroups population.length b.settings.crowdingSetSize
  let jobs ← seeded (takeGroups groups (population.map some)).1
  return jobs.flatMap fun (parents, seed) => Draw.withSeed seed (b.crowd parents)

def breed (b : Breeder) (population : List Individual) : Draw (List Individual) :=
  match b.settings.reproduction with
  | .standard => b.breedStandard population
  | .crowding => b.breedCrowding population

end Breeder
end SwarmEvolution
