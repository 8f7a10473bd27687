import SwarmEvolution.Code.Text
import SwarmEvolution.Fitness
import SwarmEvolution.Trajectory

/-! Individuals: evolved optimisers with what is known of their worth. -/
namespace SwarmEvolution

/-- What runs for each member of a swarm. -/
inductive Genotype where
  | single (p : Program)
  /-- One of the programs is drawn for every turn. -/
  | ensemble (ps : List Program)

/-- What evaluating an individual finds out. -/
structure Evaluation where
  /-- The mean of the errors. -/
  fitness : Fitness
  /-- The mean best error on each problem, in their order. -/
  errors : List Float32
  trajectory : Option Trajectory

structure Individual where
  genotype : Genotype
  fitness : Option Fitness := none
  errors : List Float32 := []
  /-- Present where swarm sizes are evolved. -/
  swarmSize : Option Nat := none
  /-- The trajectory of the first run. -/
  trajectory : Option Trajectory := none

namespace Individual

def ofProgram (p : Program) : Individual := { genotype := .single p }

def ofEnsemble (ps : List Program) : Individual := { genotype := .ensemble ps }

def withSwarmSize (i : Individual) (size : Nat) : Individual := { i with swarmSize := some size }

/-- The program that is bred from; an ensemble shows its first one. -/
def program (i : Individual) : Program :=
  match i.genotype with
  | .single p => p
  | .ensemble ps => ps.headD default

/-- Forgets all results. -/
def invalidate (i : Individual) : Individual :=
  { i with fitness := none, errors := [], trajectory := none }

/-- Takes over a program; results of the old one are forgotten. -/
def setProgram (i : Individual) (p : Program) : Individual :=
  { i with genotype := .single p }.invalidate

def points (i : Individual) : Nat :=
  match i.genotype with
  | .single p => p.points
  | .ensemble ps => ps.foldr (fun p n => p.points + n) 0

def isEvaluated (i : Individual) : Bool := i.fitness.isSome

/-- The fitness by which individuals are ranked; without one an individual comes last. -/
def fitnessOrWorst (i : Individual) : Fitness := i.fitness.getD .worst

/-- Takes over the results of an evaluation. A trajectory is kept where there is no new one. -/
def apply (i : Individual) (e : Evaluation) : Individual :=
  { i with
    fitness := some e.fitness
    errors := e.errors
    trajectory := e.trajectory.or i.trajectory }

/-- The programs, one a line, and the swarm size. -/
def text (i : Individual) : String :=
  let programs := match i.genotype with
    | .single p => p.text
    | .ensemble ps => "\n".intercalate (ps.map Program.text)
  match i.swarmSize with
  | some n => programs ++ " \x7bp=" ++ toString n ++ "\x7d"
  | none => programs

end Individual

/-- The position of the fittest individual, the first one of several; zero in an empty
population. -/
def bestIndex (population : List Individual) : Nat :=
  (Number.lowest? (population.zipIdx.map fun (i, k) => (k, i.fitnessOrWorst.rank))).getD 0

end SwarmEvolution
