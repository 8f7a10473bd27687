import SwarmEvolution.Document.Basic
import SwarmEvolution.Settings.Basic

/-! Settings as documents, with the entries of each section in a fixed order. -/
namespace SwarmEvolution

namespace Document

def count (n : Nat) : Document := .integer n
def int32 (n : Int32) : Document := .integer n.toInt

/-- A single-precision number, which keeps its value at double precision. -/
def single (x : Float32) : Document := .real x.toFloat

def optional (f : α → Document) : Option α → Document
  | some a => f a
  | none => .null

end Document

def Reproduction.name : Reproduction → String
  | .standard => "standard"
  | .crowding => "crowding"

def StartMode.name : StartMode → String
  | .random => "random"
  | .fixed => "fixed"
  | .share => "share"
  | .defined => "defined"

namespace Settings

open Document

def Evolution.toDocument (s : Evolution) : Document :=
  .table
    [("population_size", count s.populationSize),
      ("num_generations", count s.generations),
      ("reproduction_mode", .text s.reproduction.name),
      ("crossover_percent", single s.crossoverPercent),
      ("mutation_percent", single s.mutationPercent),
      ("simplification_percent", single s.simplificationPercent),
      ("reproduction_simplifications", count s.simplifications),
      ("tournament_size", count s.tournamentSize),
      ("max_points_in_program", count s.maxPoints),
      ("max_random_code_size", count s.maxRandomCodeSize),
      ("use_fair_mutation", .boolean s.fairMutation),
      ("fair_mutation_range", single s.fairMutationRange),
      ("crowding_set_size", count s.crowdingSetSize),
      ("target_fitness", optional single s.targetFitness),
      ("seed", optional (fun seed => count seed.toNat) s.seed),
      ("parallel_evaluation", .boolean s.parallelEvaluation)]

def Machine.toDocument (s : Machine) : Document :=
  .table
    [("vector_dimensions", count s.vectorDimensions),
      ("min_random_int", int32 s.minRandomInt),
      ("max_random_int", int32 s.maxRandomInt),
      ("random_int_resolution", int32 s.randomIntResolution),
      ("min_random_float", single s.minRandomFloat),
      ("max_random_float", single s.maxRandomFloat),
      ("random_float_resolution", single s.randomFloatResolution),
      ("execution_limit", count s.executionLimit),
      ("nested_execution_limit", count s.nestedExecutionLimit),
      ("max_nesting_depth", count s.maxNestingDepth),
      ("max_code_points", count s.maxCodePoints),
      ("instructions", .list (s.instructions.map .text))]

def Optimisation.toDocument (s : Optimisation) : Document :=
  .table
    [("problems", .list (s.problems.map .text)),
      ("moves", count s.moves),
      ("runs", count s.runs),
      ("swarm_size", count s.swarmSize),
      ("start_mode", .text s.startMode.name),
      ("starts_file", .text s.startsFile),
      ("evolve_swarm_size", .boolean s.evolveSwarmSize),
      ("max_swarm_size", count s.maxSwarmSize),
      ("max_evaluations", count s.maxEvaluations),
      ("swarm_size_mutation_rate", .real s.swarmSizeMutationRate),
      ("transform_problems", .boolean s.transformProblems),
      ("lower_scale", single s.lowerScale),
      ("upper_scale", single s.upperScale),
      ("lower_translate", single s.lowerTranslate),
      ("upper_translate", single s.upperTranslate),
      ("ensemble_size", count s.ensembleSize),
      ("defined_starts", .table (s.definedStarts.map fun (name, xs) =>
        (name, .list (xs.map single))))]

def toDocument (s : Settings) : Document :=
  .table
    [("evolution", s.evolution.toDocument),
      ("interpreter", s.machine.toDocument),
      ("optimisation", s.optimisation.toDocument)]

end Settings
end SwarmEvolution
