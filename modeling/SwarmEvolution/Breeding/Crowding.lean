import SwarmEvolution.Assignment
import SwarmEvolution.Individual
import SwarmEvolution.Sampling.Draw

/-!
Deterministic crowding: the parents are split into groups at random, each group's children are
matched to the parents that they behave most like, and every parent's place goes to one of the two.
-/
namespace SwarmEvolution.Breeding

open Sampling

/-- Takes out the element at an index and closes the gap with the last one. -/
def swapRemove (pool : List Nat) (index : Nat) : Nat × List Nat :=
  match pool[index]?, pool.getLast? with
  | some taken, some last => (taken, (pool.set index last).dropLast)
  | _, _ => (0, pool)

/-- Draws `count` elements out of a pool. -/
def drawGroup : (count : Nat) → List Nat → Draw (List Nat × List Nat)
  | 0, pool => return ([], pool)
  | count + 1, pool => do
    let index ← Draw.below pool.length
    let (taken, pool) := swapRemove pool index
    let (group, pool) ← drawGroup count pool
    return (taken :: group, pool)

/-- Splits a pool into groups; `turns` bounds their number. -/
def drawGroups (size : Nat) : (turns : Nat) → List Nat → Draw (List (List Nat))
  | 0, _ => return []
  | turns + 1, pool => do
    if pool.isEmpty then return []
    let (group, pool) ← drawGroup (min size pool.length) pool
    return group :: (← drawGroups size turns pool)

/-- Splits the indices of a population into random groups of one size, of which the last may be
smaller. -/
def parentGroups (population size : Nat) : Draw (List (List Nat)) :=
  drawGroups (max size 1) population (List.range population)

/-- Takes individuals out of their slots, one after another. An empty slot gives none. -/
def takeOut : List Nat → List (Option Individual) → List Individual × List (Option Individual)
  | [], slots => ([], slots)
  | i :: rest, slots =>
    let (taken, left) := takeOut rest (slots.set i none)
    (slots[i]?.join.toList ++ taken, left)

/-- Takes one group after another out of the slots. -/
def takeGroups :
    List (List Nat) → List (Option Individual) → List (List Individual) × List (Option Individual)
  | [], slots => ([], slots)
  | group :: rest, slots =>
    let (taken, slots) := takeOut group slots
    let (others, left) := takeGroups rest slots
    (taken :: others, left)

/-- The distance in behaviour, or a large number where it is not finite. -/
def behaviourDistance (a b : Individual) : Float :=
  let d := Trajectory.distance? a.trajectory b.trajectory
  if d.isFinite then d else Number.unreachable

/-- The distances from each parent to each child. -/
def distances (parents children : List Individual) : List (List Float) :=
  parents.map fun p => children.map (behaviourDistance p)

/-- Whether a child takes its parent's place: if its fitness value is greater, and after a coin if
the values are equal. -/
def replaces (parent child : Float32) : Draw Bool :=
  if parent < child then return true
  else if child == parent then Draw.coin
  else return false

/-- Fills each parent's place. A child that has been matched once is gone. -/
def fillPlaces : List (Individual × Nat) → List (Option Individual) → Draw (List Individual)
  | [], _ => return []
  | (parent, j) :: rest, children => do
    match children[j]? with
    | some (some child) =>
      let wins ← replaces parent.fitnessOrWorst.value child.fitnessOrWorst.value
      return (if wins then child else parent) :: (← fillPlaces rest (children.set j none))
    | _ => return parent :: (← fillPlaces rest children)

/-- One survivor for every parent's place. -/
def selectSurvivors (parents children : List Individual) : Draw (List Individual) :=
  fillPlaces (parents.zip (assignMatrix (distances parents children))) (children.map some)

end SwarmEvolution.Breeding
