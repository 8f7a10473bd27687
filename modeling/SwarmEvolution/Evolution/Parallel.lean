import SwarmEvolution.Evolution.Run

/-!
Runs whose work is done side by side. The individuals of a generation are evaluated and the groups
of parents compete in whatever order the workers come to them. All seeds are drawn before the work
is handed out, every result goes to the place of its job, and the run goes on when all are there.
-/
namespace SwarmEvolution

open Sampling Breeding

/-- A job that waits at its place, or what has come of it. -/
inductive Job (α β : Type) where
  | waiting (input : α)
  | done (result : β)

namespace Job

variable {α β : Type}

/-- Does a job; one that is done stays as it is. -/
def perform (work : α → β) : Job α β → Job α β
  | .waiting input => .done (work input)
  | .done result => .done result

def result? : Job α β → Option β
  | .waiting _ => none
  | .done result => some result

/-- Does the jobs at some places, one after the other. -/
def performAt (work : α → β) (order : List Nat) (jobs : List (Job α β)) : List (Job α β) :=
  order.foldl (fun jobs place => jobs.modify place (perform work)) jobs

/-- What comes of jobs that are done in an order of their places. -/
def collect (work : α → β) (order : List Nat) (inputs : List α) : List β :=
  (performAt work order (inputs.map waiting)).filterMap result?

end Job

/-- The orders in which the work of every generation is done. Each job is done once. -/
structure Schedule where
  /-- The order in which so many individuals are evaluated. -/
  evaluations : (generation count : Nat) → List Nat
  /-- The order in which so many groups of parents compete. -/
  groups : (generation count : Nat) → List Nat
  evaluations_perm : ∀ generation count,
    (evaluations generation count).Perm (List.range count)
  groups_perm : ∀ generation count, (groups generation count).Perm (List.range count)

/-- The schedule that keeps to the given order. -/
instance : Inhabited Schedule where
  default := {
    evaluations := fun _ => List.range
    groups := fun _ => List.range
    evaluations_perm := fun _ _ => .refl _
    groups_perm := fun _ _ => .refl _ }

namespace Breeder

/-- The order of so many jobs: any for workers side by side, and the given one otherwise. -/
def workOrder (b : Breeder) (order : Nat → List Nat) (count : Nat) : List Nat :=
  if b.settings.parallelEvaluation then order count else List.range count

/-- Evaluates an individual with its seed, if it needs to be. -/
def review (b : Breeder) (all : Bool) (job : Individual × UInt64) : Individual :=
  if all || !job.1.isEvaluated then job.1.apply (b.evaluator.evaluate job.1 job.2) else job.1

/-- What comes of a group of parents with the seed of its stream. -/
def compete (b : Breeder) (job : List Individual × UInt64) : List Individual :=
  Draw.withSeed job.2 (b.crowd job.1)

/-- Evaluates a population under a schedule. -/
def evaluateAllUnder (b : Breeder) (schedule : Schedule) (generation : Nat) (all : Bool)
    (population : List Individual) : Draw (List Individual) := do
  let seeds ← Draw.each (fun _ => Draw.wide) population
  let order := b.workOrder (schedule.evaluations generation) population.length
  return Job.collect (b.review all) order (population.zip seeds)

/-- The next generation by crowding under a schedule. -/
def breedCrowdingUnder (b : Breeder) (schedule : Schedule) (generation : Nat)
    (population : List Individual) : Draw (List Individual) := do
  let groups ← parentGroups population.length b.settings.crowdingSetSize
  let jobs ← seeded (takeGroups groups (population.map some)).1
  let order := b.workOrder (schedule.groups generation) jobs.length
  return (Job.collect b.compete order jobs).flatten

def breedUnder (b : Breeder) (schedule : Schedule) (generation : Nat)
    (population : List Individual) : Draw (List Individual) :=
  match b.settings.reproduction with
  | .standard => b.breedStandard population
  | .crowding => b.breedCrowdingUnder schedule generation population

/-- One generation under a schedule. -/
def generationUnder (b : Breeder) (schedule : Schedule) (number : Nat)
    (population : List Individual) : Draw Course := do
  let population ←
    b.evaluateAllUnder schedule number (b.settings.reproduction = .standard) population
  let stats := GenerationStats.ofPopulation number population
  return {
    population
    history := [stats]
    reachedTarget := b.reaches stats.bestFitness
    progress :=
      .started number :: b.evaluationProgress population.length ++ [.completed stats] }

/-- The generations from one number on under a schedule, at most `remaining` of them. -/
def generationsUnder (b : Breeder) (schedule : Schedule) :
    (remaining number : Nat) → List Individual → Draw Course
  | 0, _, population => return { population }
  | remaining + 1, number, population => do
    let course ← b.generationUnder schedule number population
    if course.reachedTarget || remaining = 0 then return course
    else
      let next ← b.breedUnder schedule number course.population
      return course.followedBy (← b.generationsUnder schedule remaining (number + 1) next)

/-- All generations under a schedule. -/
def courseUnder (b : Breeder) (schedule : Schedule) : Draw Course := do
  let first ← b.firstGeneration
  let course ← b.generationsUnder schedule b.settings.generations 0 first
  if course.history.isEmpty then
    let population ← b.evaluateAllUnder schedule 0 true course.population
    return { course with
      population
      progress := course.progress ++ b.evaluationProgress course.population.length }
  else return course

/-- A run under a schedule. -/
def runUnder (b : Breeder) (schedule : Schedule) : Draw EvolutionResult := do
  let course ← b.courseUnder schedule
  let population := course.population
  return {
    best := pick population (bestIndex population)
    history := course.history
    population
    ensemble := ← b.buildEnsemble population
    reachedTarget := course.reachedTarget
    progress := course.progress }

/-- A run from settings, if they are accepted. -/
def evolveUnder (s : Settings) (d : Directory) (schedule : Schedule) :
    Draw (Except Failure EvolutionResult) := do
  let (breeder, _) ← prepare s d
  match breeder with
  | .error f => return .error f
  | .ok b => return .ok (← b.runUnder schedule)

end Breeder
end SwarmEvolution
