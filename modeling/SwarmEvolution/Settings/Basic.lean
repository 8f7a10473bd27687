import SwarmEvolution.Failure
import SwarmEvolution.Problem.Basic

/-!
The settings of a run of evolution, in three sections, and the conditions on them. Each section
lists its conditions in order; the first one that does not hold is the fault that is reported.
-/
namespace SwarmEvolution

/-- How the next generation is bred. -/
inductive Reproduction where
  /-- The best individual survives, the others come from tournaments. -/
  | standard
  /-- Children compete with the parents they resemble. -/
  | crowding
  deriving DecidableEq, Repr

/-- Where swarm members start. -/
inductive StartMode where
  | random | fixed | share | defined
  deriving DecidableEq, Repr

namespace Settings

/-- How programs are bred. -/
structure Evolution where
  populationSize : Nat := 100
  generations : Nat := 50
  reproduction : Reproduction := .standard
  crossoverPercent : Float32 := 50
  mutationPercent : Float32 := 50
  /-- The chance that a surviving individual is simplified too. -/
  simplificationPercent : Float32 := 5
  /-- The attempts made to simplify one individual. -/
  simplifications : Nat := 25
  tournamentSize : Nat := 7
  maxPoints : Nat := 100
  maxRandomCodeSize : Nat := 40
  fairMutation : Bool := true
  fairMutationRange : Float32 := 0.3
  /-- The number of parents that compete with each other's children. -/
  crowdingSetSize : Nat := 2
  /-- Evolution stops when the best fitness reaches this value. -/
  targetFitness : Option Float32 := none
  seed : Option UInt64 := none
  parallelEvaluation : Bool := true

/-- How programs run. -/
structure Machine where
  /-- The length of vectors and the dimension of the problems. -/
  vectorDimensions : Nat := 2
  minRandomInt : Int32 := -10
  maxRandomInt : Int32 := 10
  randomIntResolution : Int32 := 1
  minRandomFloat : Float32 := -1
  maxRandomFloat : Float32 := 1
  /-- The grid of float constants; zero for none. -/
  randomFloatResolution : Float32 := 0
  /-- The steps of one execution. -/
  executionLimit : Nat := 100
  /-- The steps per component in `vector.apply` and `vector.zip`. -/
  nestedExecutionLimit : Nat := 100
  maxNestingDepth : Nat := 4
  /-- The largest code that the instructions put together. -/
  maxCodePoints : Nat := 200
  instructions : List String :=
    ["registered.vector", "registered.float", "registered.integer", "registered.boolean",
      "registered.exec", "registered.input"]

/-- How an evolved optimiser is tried out. -/
structure Optimisation where
  problems : List String := ["sphere", "rastrigin"]
  moves : Nat := 50
  runs : Nat := 3
  swarmSize : Nat := 10
  startMode : StartMode := .random
  startsFile : String := "starts.txt"
  evolveSwarmSize : Bool := false
  maxSwarmSize : Nat := 50
  /-- With an evolved swarm size the moves are this number over the size. -/
  maxEvaluations : Nat := 500
  swarmSizeMutationRate : Float := 0.05
  transformProblems : Bool := false
  lowerScale : Float32 := 0.5
  upperScale : Float32 := 2
  lowerTranslate : Float32 := -0.5
  upperTranslate : Float32 := 0.5
  /-- The number of programs pooled in the end; zero for no pool. -/
  ensembleSize : Nat := 0
  /-- Start coordinates by problem, in the order of the names. -/
  definedStarts : List (String × List Float32) := []

/-- The first fault whose condition is met. -/
def firstFault (faults : List (Bool × SettingsFault)) : Except Failure Unit :=
  match faults.find? (·.1) with
  | some (_, fault) => .error (.settings fault)
  | none => .ok ()

def Evolution.faults (s : Evolution) : List (Bool × SettingsFault) :=
  let crowding := s.reproduction = .crowding
  let set := s.crowdingSetSize
  [(s.populationSize < 2, .populationTooSmall),
    (s.crossoverPercent < 0 || s.mutationPercent < 0, .negativeShare),
    (s.crossoverPercent + s.mutationPercent ≤ 0, .sharesBothZero),
    (!(0 ≤ s.simplificationPercent && s.simplificationPercent ≤ 100), .simplificationOutOfRange),
    (s.tournamentSize = 0, .emptyTournament),
    (s.maxPoints < 2 || s.maxRandomCodeSize = 0, .programLimitsTooSmall),
    (s.fairMutationRange ≤ 0, .mutationRangeNotPositive),
    (crowding && (set < 2 || set % 2 ≠ 0), .crowdingSetOdd set),
    (crowding && s.populationSize % set ≠ 0, .crowdingSetDoesNotDivide s.populationSize set)]

def Machine.faults (s : Machine) : List (Bool × SettingsFault) :=
  [(s.vectorDimensions = 0, .noDimensions),
    (s.maxRandomInt < s.minRandomInt || s.maxRandomFloat < s.minRandomFloat, .emptyRandomRange),
    (s.randomIntResolution < 1 || s.randomFloatResolution < 0, .resolutionNotPositive),
    (s.executionLimit = 0, .noExecutionSteps),
    (s.instructions.isEmpty, .noInstructions)]

/-- The range of the scales of transformed problems. -/
def Optimisation.scale (s : Optimisation) : Interval Float32 := ⟨s.lowerScale, s.upperScale⟩

/-- The range of their offsets, which count in ranges of the bounds. -/
def Optimisation.translate (s : Optimisation) : Interval Float32 :=
  ⟨s.lowerTranslate, s.upperTranslate⟩

def Optimisation.faults (s : Optimisation) : List (Bool × SettingsFault) :=
  [(s.problems.isEmpty, .noProblems),
    (s.runs = 0 || s.swarmSize = 0, .noRuns),
    (!s.evolveSwarmSize && s.moves = 0, .noMoves),
    (s.evolveSwarmSize && s.maxSwarmSize < 2, .largestSwarmTooSmall),
    (s.evolveSwarmSize && s.maxEvaluations < s.maxSwarmSize, .tooFewEvaluations),
    (s.evolveSwarmSize && s.startMode ≠ .random, .savedStartsForEvolvingSwarm),
    (!(0 ≤ s.swarmSizeMutationRate && s.swarmSizeMutationRate ≤ 1), .mutationRateOutOfRange),
    (!s.scale.isPositive, .badScaleRange),
    (s.upperTranslate < s.lowerTranslate, .badTranslateRange)]

def Evolution.validate (s : Evolution) : Except Failure Unit := firstFault s.faults
def Machine.validate (s : Machine) : Except Failure Unit := firstFault s.faults
def Optimisation.validate (s : Optimisation) : Except Failure Unit := firstFault s.faults

end Settings

structure Settings where
  evolution : Settings.Evolution := {}
  machine : Settings.Machine := {}
  optimisation : Settings.Optimisation := {}

namespace Settings

def validate (s : Settings) : Except Failure Unit := do
  s.evolution.validate
  s.machine.validate
  s.optimisation.validate

/-- The names of the sections in a document. -/
def sectionNames : List String := ["evolution", "interpreter", "optimisation"]

end Settings
end SwarmEvolution
