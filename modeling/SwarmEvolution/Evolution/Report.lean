import SwarmEvolution.Evolution.Run

/-! The text in which a finished run is reported. -/
namespace SwarmEvolution

/-- Fitness and size of an individual, and its programs on the lines below. -/
def Individual.report (label : String) (i : Individual) : String :=
  let fitness := Number.render .literal i.fitnessOrWorst.value
  let points := i.points
  let text := i.text
  s!"{label}: fitness {fitness}, {points} points\n{text}\n"

/-- One line for a generation. -/
def GenerationStats.line (s : GenerationStats) : String :=
  let generation := s.generation
  let best := Number.render .literal s.bestFitness
  let mean := Number.render .literal s.meanFitness
  s!"generation {generation}: best {best}, mean {mean}\n"

namespace EvolutionResult

/-- The generations, whether the target was reached, and the best that was found. -/
def report (r : EvolutionResult) : String :=
  let generations := String.join (r.history.map GenerationStats.line)
  let target := if r.reachedTarget then "target reached\n" else ""
  let ensemble := match r.ensemble with
    | some i => i.report "ensemble"
    | none => ""
  generations ++ target ++ r.best.report "best" ++ ensemble

end EvolutionResult
end SwarmEvolution
