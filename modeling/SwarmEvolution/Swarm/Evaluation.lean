import SwarmEvolution.Number.Double
import SwarmEvolution.StartPoints
import SwarmEvolution.Swarm.Run

/-!
Evaluating individuals: a number of runs on every problem, all of them drawn from one seed, so that
the same seed gives the same fitness.
-/
namespace SwarmEvolution

structure Evaluator where
  machine : Settings.Machine
  optimisation : Settings.Optimisation
  problems : List Problem
  starts : StartPoints
  /-- Whether evaluations keep the trajectory of the first run on the first problem. -/
  keepTrajectories : Bool

namespace Evaluator

open Sampling

/-- An evaluator on at least one problem, all of them of the dimension of the vectors. -/
def ofParts (machine : Settings.Machine) (optimisation : Settings.Optimisation)
    (problems : List Problem) (starts : StartPoints) (keepTrajectories : Bool) :
    Except Failure Evaluator :=
  if problems.isEmpty then .error (.problem .none)
  else
    match problems.find? (·.dimensions != machine.vectorDimensions) with
    | some p =>
      .error (.problem (.dimensionMismatch p.name p.dimensions machine.vectorDimensions))
    | none => .ok { machine, optimisation, problems, starts, keepTrajectories }

/-- The number of members that an individual's swarm has. -/
def swarmSize (e : Evaluator) (i : Individual) : Nat :=
  match i.swarmSize with
  | some n => if e.optimisation.evolveSwarmSize then max n 1 else e.optimisation.swarmSize
  | none => e.optimisation.swarmSize

/-- The moves of a run. Where swarm sizes are evolved, larger swarms have fewer of them. -/
def moves (e : Evaluator) (swarmSize : Nat) : Nat :=
  if e.optimisation.evolveSwarmSize then e.optimisation.maxEvaluations / max swarmSize 1
  else e.optimisation.moves

/-- One run of an individual on the problem with a given index. -/
def run (e : Evaluator) (i : Individual) (problem : Problem) (index runNumber : Nat)
    (record : Bool) : Draw Swarm.State :=
  let size := e.swarmSize i
  Swarm.run ⟨problem, i.genotype, e.machine⟩ (e.starts.get? index runNumber) size (e.moves size)
    record

/-- The outcomes of all runs on one problem. -/
def runsOn (e : Evaluator) (i : Individual) (problem : Problem) (index : Nat) :
    Draw (List Swarm.State) :=
  Draw.each (fun number =>
    e.run i problem index number (e.keepTrajectories && index = 0 && number = 0))
    (List.range e.optimisation.runs)

/-- The mean of the best errors of some runs, zero for none. -/
def meanError (outcomes : List Swarm.State) (runs : Nat) : Float32 :=
  let errors := outcomes.map fun s => Number.Double.ofSingle s.bestValue
  ((Number.Double.sum (.finite false 0) errors).dividedBy (max runs 1)).toSingle

/-- The mean of the errors; without any the largest one. Sums start at `-0.0`. -/
def meanOfErrors (errors : List Float32) : Float32 :=
  if errors.isEmpty then Number.largest
  else
    let wide := errors.map Number.Double.ofSingle
    ((Number.Double.sum (.finite true 0) wide).dividedBy errors.length).toSingle

/-- What the runs on all problems come to. -/
def summarise (e : Evaluator) (outcomes : List (List Swarm.State)) : Evaluation :=
  let errors := outcomes.map (meanError · e.optimisation.runs)
  { fitness := .ofFloat (meanOfErrors errors)
    errors
    trajectory := outcomes.flatten.findSome? (·.trajectory) }

def evaluate (e : Evaluator) (i : Individual) (seed : UInt64) : Evaluation :=
  Draw.withSeed seed do
    let outcomes ← Draw.each (fun (p, index) => e.runsOn i p index) e.problems.zipIdx
    return e.summarise outcomes

end Evaluator
end SwarmEvolution
