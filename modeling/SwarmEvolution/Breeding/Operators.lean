import SwarmEvolution.Individual
import SwarmEvolution.Number.Width
import SwarmEvolution.Vocabulary

/-!
Breeding: tournaments, crossover of subtrees, mutation by random code and by another swarm size. A
child that would be too large is a copy of its parent instead.
-/
namespace SwarmEvolution.Breeding

open Sampling

/-- The member of a population with a given index. -/
def pick (population : List Individual) (index : Nat) : Individual :=
  population[index]?.getD (.ofProgram default)

/-- The index of the fittest of `size` candidates drawn from the population. -/
def tournament (population : List Individual) (size : Nat) : Draw Nat := do
  let candidate : Draw Nat := Draw.below population.length
  let fitness (index : Nat) : Float32 := (pick population index).fitnessOrWorst.value
  let first ← candidate
  let others ← Draw.times (size - 1) candidate
  return others.foldl (fun best i => if fitness i < fitness best then i else best) first

/-- The index of any point of a program, its root among them. -/
def node (p : Program) : Draw Nat := Draw.below (max p.points 1)

/-- The receiver with one point replaced by one of the donor's, unless that grows too large. -/
def splice? (receiver : Program) (place : Nat) (donor : Program) (source maxPoints : Nat) :
    Option Program := do
  let child := receiver.replace place (← donor.subtree? source)
  if child.points ≤ maxPoints then return child else none

/-- A child with another program, or a copy of the parent. -/
def offspring (parent : Individual) : Option Program → Individual
  | some p => parent.setProgram p
  | none => parent

def crossover (a b : Individual) (maxPoints : Nat) : Draw Individual := do
  let place ← node a.program
  let source ← node b.program
  return offspring a (splice? a.program place b.program source maxPoints)

/-- Crossover in both directions at the same two points. -/
def crossoverPair (a b : Individual) (maxPoints : Nat) : Draw (Individual × Individual) := do
  let place ← node a.program
  let source ← node b.program
  return (offspring a (splice? a.program place b.program source maxPoints),
    offspring b (splice? b.program source a.program place maxPoints))

/-- How far a fair mutation may move the size of a subtree: a share of its size, at least one. -/
def mutationReach (range : Float32) (oldSize : Nat) : Int :=
  max (Number.truncate (range * Float32.ofNat oldSize)) 1

/-- The number of offsets within a reach, as a word of 64 bits. A reach of `2 ^ 62` or more has too
many of them: they come around to a number below zero, which leaves nothing to draw from. -/
def offsetCount (reach : Int) : Int64 := 2 * Int64.ofInt reach

/-- A size, taken as a word of 64 bits and moved by an offset, if such a word can hold it then. -/
def movedSize? (oldSize : Nat) (offset : Int) : Option Int :=
  let size := (Int64.ofNat oldSize).toInt + offset
  if Number.fitsInt64 size then some size else none

/-- The size of the code that takes the place of a subtree, none where a fair mutation has no
offsets to draw from or one that is too large. -/
def mutationSize? (s : Settings.Evolution) (oldSize : Nat) : Draw (Option Nat) := do
  if s.fairMutation then
    let reach := mutationReach s.fairMutationRange oldSize
    let count := offsetCount reach
    if count ≤ 0 then return none
    let offset := (← Draw.between 0 count.toInt) - reach
    return (movedSize? oldSize offset).map fun size => (max size 1).toNat
  else return some (1 + (← Draw.below (max s.maxRandomCodeSize 1)))

/-- The size that a mutation asks for. Where there is none to draw, no mutation comes about at all;
here one stands for it. -/
def mutationSize (s : Settings.Evolution) (oldSize : Nat) : Draw Nat :=
  return (← mutationSize? s oldSize).getD 1

/-- Puts random code in the place of a subtree. -/
def mutate (v : Vocabulary) (s : Settings.Evolution) (parent : Individual) : Draw Individual := do
  let program := parent.program
  let place ← node program
  let size ← mutationSize s (program.subtreePoints place)
  let mutated := program.replace place (← v.randomCode size)
  return offspring parent (if mutated.points ≤ s.maxPoints then some mutated else none)

/-- Draws another swarm size with probability `rate`, where there is one and there is a choice. -/
def mutateSwarmSize (i : Individual) (maxSize : Nat) (rate : Float) : Draw Individual := do
  if i.swarmSize.isSome && 1 < maxSize then
    if ← Draw.chance rate then
      let size := 1 + (← Draw.below (maxSize - 1))
      return (i.withSwarmSize size).invalidate
    else return i
  else return i

end SwarmEvolution.Breeding
