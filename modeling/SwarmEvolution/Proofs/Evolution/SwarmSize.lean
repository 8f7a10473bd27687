import SwarmEvolution.Proofs.Evolution.Accounts

/-! Evolved swarm sizes trade members for moves. Every size that is drawn is below the largest one,
and the largest swarm may still move once, so that all runs keep to the evaluations allowed. -/
namespace SwarmEvolution

open Sampling Draw Breeding

namespace Individual

end Individual

namespace Breeder

variable {b : Breeder} {population : List Individual}

/-- Swarms of one or two members that are tried out five times. -/
def sharing : Settings where
  evolution := fourfold.evolution
  machine := fourfold.machine
  optimisation :=
    { problems := ["sphere"], runs := 1, swarmSize := 1, evolveSwarmSize := true
      maxSwarmSize := 3, maxEvaluations := 5 }

end Breeder
end SwarmEvolution
