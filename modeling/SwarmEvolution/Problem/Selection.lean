import SwarmEvolution.Problem.Benchmark
import SwarmEvolution.Problem.Transform
import SwarmEvolution.Settings.Basic

/-! The problems that the settings name. -/
namespace SwarmEvolution.Settings.Optimisation

/-- One problem of the list, transformed if the settings ask for it. -/
def problem (s : Optimisation) (dimensions : Nat) (b : Benchmark) : Sampling.Draw Problem := do
  let plain := b.problem dimensions
  if s.transformProblems then
    let t ← Transform.draw s.scale s.translate plain.bounds
    return plain.transformed t
  else return plain

/-- All problems, in the order of the settings. An unknown name is a failure, and what the names
before it have drawn stays drawn. -/
def buildProblems (s : Optimisation) (dimensions : Nat) :
    Sampling.Draw (Except Failure (List Problem)) :=
  go s.problems
where
  go : List String → Sampling.Draw (Except Failure (List Problem))
    | [] => return .ok []
    | name :: rest => do
      match Benchmark.ofName name with
      | .error f => return .error f
      | .ok b =>
        let p ← s.problem dimensions b
        return (← go rest).map (p :: ·)

end SwarmEvolution.Settings.Optimisation
