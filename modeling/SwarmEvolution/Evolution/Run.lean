import SwarmEvolution.Evolution.Breeder

/-!
Whole runs of evolution: generations are evaluated and bred from until their number is reached or
the fitness aimed at, and in the end the best programs may be pooled. What happens on the way is
told as a list of events.
-/
namespace SwarmEvolution

open Sampling Breeding

/-- A generation in numbers. -/
structure GenerationStats where
  generation : Nat
  bestFitness : Float32
  /-- The mean of the finite fitness values, the largest number if there are none. -/
  meanFitness : Float32
  bestPoints : Nat
  meanPoints : Float32

inductive Progress where
  | started (generation : Nat)
  | evaluated (count total : Nat)
  | completed (stats : GenerationStats)

/-- What a run of evolution comes to. -/
structure EvolutionResult where
  best : Individual
  history : List GenerationStats
  population : List Individual
  /-- The pool of the best programs of the last generation. -/
  ensemble : Option Individual
  reachedTarget : Bool
  progress : List Progress

def GenerationStats.ofPopulation (generation : Nat) (population : List Individual) :
    GenerationStats :=
  let best := pick population (bestIndex population)
  let values := (population.filterMap (·.fitness.map Fitness.value)).filter Float32.isFinite
  { generation
    bestFitness := best.fitnessOrWorst.value
    meanFitness := Evaluator.meanOfErrors values
    bestPoints := best.points
    meanPoints :=
      Number.sum (population.map fun i => Float32.ofNat i.points)
        / Float32.ofNat (max population.length 1) }

/-- The pool of the programs of the `size` fittest individuals, with the swarm size of the
fittest. -/
def assembleEnsemble (population : List Individual) (size : Nat) : Individual :=
  let ranked := population.mergeSort fun a b =>
    a.fitnessOrWorst.rank ≤ b.fitnessOrWorst.rank
  { Individual.ofEnsemble ((ranked.take size).map Individual.program) with
    swarmSize := ranked.head?.bind (·.swarmSize) }

namespace Breeder

/-- Evaluates a population, with a seed for every individual whether it needs one or not. Without
`all`, individuals that have a fitness keep it. -/
def evaluateAll (b : Breeder) (all : Bool) (population : List Individual) :
    Draw (List Individual) := do
  let seeds ← Draw.each (fun _ => Draw.wide) population
  return List.zipWith (fun i seed =>
    if all || !i.isEvaluated then i.apply (b.evaluator.evaluate i seed) else i) population seeds

/-- What is told of an evaluation: each individual, or all at once where they are evaluated side by
side. -/
def evaluationProgress (b : Breeder) (total : Nat) : List Progress :=
  if b.settings.parallelEvaluation then [.evaluated total total]
  else (List.range total).map fun k => .evaluated (k + 1) total

def reaches (b : Breeder) (fitness : Float32) : Bool :=
  match b.settings.targetFitness with
  | some target => fitness ≤ target
  | none => false

/-- Where a run of generations has come to. -/
structure Course where
  population : List Individual
  history : List GenerationStats := []
  reachedTarget : Bool := false
  progress : List Progress := []

/-- A course and the one that it goes over into. -/
def Course.followedBy (first later : Course) : Course where
  population := later.population
  history := first.history ++ later.history
  reachedTarget := later.reachedTarget
  progress := first.progress ++ later.progress

/-- One generation, which is evaluated. -/
def generation (b : Breeder) (number : Nat) (population : List Individual) : Draw Course := do
  let population ← b.evaluateAll (b.settings.reproduction = .standard) population
  let stats := GenerationStats.ofPopulation number population
  return {
    population
    history := [stats]
    reachedTarget := b.reaches stats.bestFitness
    progress :=
      .started number :: b.evaluationProgress population.length ++ [.completed stats] }

/-- The generations from one number on, at most `remaining` of them. -/
def generations (b : Breeder) : (remaining number : Nat) → List Individual → Draw Course
  | 0, _, population => return { population }
  | remaining + 1, number, population => do
    let course ← b.generation number population
    if course.reachedTarget || remaining = 0 then return course
    else
      let next ← b.breed course.population
      return course.followedBy (← b.generations remaining (number + 1) next)

/-- All generations. Without any the first population is evaluated all the same. -/
def course (b : Breeder) : Draw Course := do
  let first ← b.firstGeneration
  let course ← b.generations b.settings.generations 0 first
  if course.history.isEmpty then
    let population ← b.evaluateAll true course.population
    return { course with
      population
      progress := course.progress ++ b.evaluationProgress course.population.length }
  else return course

/-- Evaluates an individual with a seed drawn for it. -/
def evaluate (b : Breeder) (i : Individual) : Draw Evaluation :=
  return b.evaluator.evaluate i (← Draw.wide)

/-- The evaluated pool that the settings ask for. -/
def buildEnsemble (b : Breeder) (population : List Individual) : Draw (Option Individual) := do
  if b.optimisation.ensembleSize = 0 then return none
  let ensemble := assembleEnsemble population b.optimisation.ensembleSize
  return some (ensemble.apply (← b.evaluate ensemble))

/-- A run from the first generation to the pool. -/
def run (b : Breeder) : Draw EvolutionResult := do
  let course ← b.course
  let population := course.population
  return {
    best := pick population (bestIndex population)
    history := course.history
    population
    ensemble := ← b.buildEnsemble population
    reachedTarget := course.reachedTarget
    progress := course.progress }

/-- A breeder as the settings describe it. It draws the transformations of the problems and the
start points, which may come from or go to a file of the directory. -/
def prepare (s : Settings) (d : Directory) : Draw (Except Failure Breeder × Directory) := do
  match s.validate with
  | .error f => return (.error f, d)
  | .ok () =>
  match Vocabulary.ofSettings s.machine with
  | .error f => return (.error f, d)
  | .ok vocabulary =>
  match ← s.optimisation.buildProblems s.machine.vectorDimensions with
  | .error f => return (.error f, d)
  | .ok problems =>
  let (starts, d) ← StartPoints.prepare s.optimisation problems d
  let keepTrajectories := s.evolution.reproduction = Reproduction.crowding
  let evaluator := starts.bind fun starts =>
    Evaluator.ofParts s.machine s.optimisation problems starts keepTrajectories
  return (evaluator.map fun evaluator =>
    { settings := s.evolution, optimisation := s.optimisation, vocabulary, evaluator }, d)

/-- A run from settings, if they are accepted. -/
def evolve (s : Settings) (d : Directory) : Draw (Except Failure EvolutionResult) := do
  let (breeder, _) ← prepare s d
  match breeder with
  | .error f => return .error f
  | .ok b => return .ok (← b.run)

end Breeder
end SwarmEvolution
