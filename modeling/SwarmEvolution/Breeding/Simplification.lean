import SwarmEvolution.Swarm.Evaluation

/-!
Simplification: points of a program are deleted or lists dissolved at random, and what comes out is
kept whenever it is no worse.
-/
namespace SwarmEvolution.Breeding

open Sampling

/-- Of how many attempts in a hundred a list is dissolved. -/
def flattenPercent : Nat := 20

/-- The indices of the lists within a program. -/
def listPoints (p : Program) : List Nat :=
  (List.range p.points).filter fun i => 0 < i && ((p.subtree? i).map Code.isList).getD false

/-- Deletes points at random, as long as there are any below the root. -/
def removePoints : (count : Nat) → Program → Draw Program
  | 0, p => return p
  | count + 1, p => do
    if p.points ≤ 1 then return p
    let index := 1 + (← Draw.below (p.points - 1))
    removePoints count ((p.remove? index).getD p)

/-- Deletes one or two points. -/
def removeSome (p : Program) : Draw Program := do
  let count := 1 + (← Draw.small 2)
  removePoints count p

/-- A simpler program; nothing if there is nothing to take away. -/
def simplifyStep? (p : Program) : Draw (Option Program) := do
  if p.points ≤ 1 then return none
  let flatten := (← Draw.small 100) < flattenPercent
  let lists := if flatten then listPoints p else []
  if lists.isEmpty then return some (← removeSome p)
  else
    let i ← Draw.below lists.length
    return some ((p.flatten? (lists.getD i 0)).getD p)

/-- The evaluated individual with the program replaced. -/
def retry (evaluate : Individual → Evaluation) (i : Individual) (p : Program) : Individual :=
  let trial := i.setProgram p
  trial.apply (evaluate trial)

/-- Attempts to simplify, one after another, that keep what is no worse. -/
def simplifyWith (evaluate : Individual → Evaluation) :
    (attempts : Nat) → Individual → Draw Individual
  | 0, best => return best
  | attempts + 1, best => do
    match ← simplifyStep? best.program with
    | none => return best
    | some p =>
      let trial := retry evaluate best p
      simplifyWith evaluate attempts
        (if trial.fitnessOrWorst.value ≤ best.fitnessOrWorst.value then trial else best)

/-- Simplifies an individual with one program. All its variants are evaluated with one seed, so
that they face the same start points. -/
def simplify (evaluate : Individual → UInt64 → Evaluation) (attempts : Nat) (i : Individual) :
    Draw Individual := do
  match i.genotype with
  | .ensemble _ => return i
  | .single _ =>
    let seed ← Draw.wide
    let evaluate (i : Individual) := evaluate i seed
    simplifyWith evaluate attempts (i.apply (evaluate i))

end SwarmEvolution.Breeding
