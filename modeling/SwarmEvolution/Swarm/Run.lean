import SwarmEvolution.Individual
import SwarmEvolution.Swarm.Member

/-!
A run of a swarm on a problem, with an evolved program as its rule of motion. In every move each
member takes a turn: its stacks are put into the machine, the program runs on them, and the member
moves to the point on top of the vectors. The machine's own stacks are empty between turns, so no
member sees another one's stacks.
-/
namespace SwarmEvolution

open Sampling

/-- The program of the next turn. -/
def Genotype.draw : Genotype → Draw Program
  | .single p => return p
  | .ensemble [] => return default
  | .ensemble (p :: ps) => do
    let i ← Draw.below (ps.length + 1)
    return (p :: ps)[i]?.getD p

namespace Swarm

/-- What stays the same during a run. -/
structure Course where
  problem : Problem
  genotype : Genotype
  settings : Settings.Machine

/-- The bounds of the first dimension, which are the ones published to programs. -/
def Course.bounds (c : Course) : Interval Float32 := c.problem.bound 0

structure State where
  machine : Machine
  members : Array Member
  /-- The lowest error so far, start points included. -/
  bestValue : Float32
  trajectory : Option Trajectory

/-- Lets go of a higher best value. -/
def lowerTo (value best : Float32) : Float32 := if value < best then value else best

/-- Publishes the bounds and nothing else. -/
def publishBounds (c : Course) (m : Machine) : Machine :=
  { m with input := Stack.empty.pushAll [.float c.bounds.lower, .float c.bounds.upper] }

/-- A machine with a member's stacks in it at the beginning of a turn: the move, the member and the
best member are on the integers, and the bounds are published. -/
def openTurn (c : Course) (move best index : Nat) (m : Machine) : Machine :=
  let m := publishBounds c { m with current := index }
  ((m.pushInteger (Int32.ofNat move)).pushInteger (Int32.ofNat index)).pushInteger
    (Int32.ofNat best)

/-- The machine when the program of a member's turn has run, with the member's stacks in it. -/
def runProgram (c : Course) (move best : Nat) (s : State) (index : Nat) (member : Member)
    (program : Program) : Machine :=
  let start := openTurn c move best index (s.machine.swapFrame member.frame).1
  (start.execute (SwarmView.ofMembers s.members) program c.settings.executionLimit).1

/-- The swarm after a member's turn. What is published after it is the bounds and the member, until
the next turn begins. -/
def afterTurn (c : Course) (move best : Nat) (s : State) (index : Nat) (member : Member)
    (program : Program) : State :=
  let idle := (s.machine.swapFrame member.frame).2
  let after := publishBounds c (runProgram c move best s index member program)
  let moved := member.settle c.problem after.frame
  let input := after.input.push (.integer (Int32.ofNat index))
  { machine := { (after.swapFrame idle).1 with input }
    members := s.members.setIfInBounds index moved
    bestValue :=
      if c.problem.within moved.current then lowerTo moved.currentValue s.bestValue
      else s.bestValue
    trajectory := s.trajectory.map fun t => t.record index move moved.current }

/-- One member's turn. -/
def turn (c : Course) (move best : Nat) (s : State) (index : Nat) : Draw State := do
  match s.members[index]? with
  | none => return s
  | some member => return afterTurn c move best s index member (← c.genotype.draw)

/-- One move: a turn of every member, in order. All of them are told the same best member. -/
def move (c : Course) (s : State) (number : Nat) : Draw State :=
  let best := bestMember s.members
  (List.range s.members.size).foldlM (turn c number best) s

/-- The point that is given for a member, or else a random one. -/
def startPoint (problem : Problem) (start? : Nat → Option Point) (member : Nat) : Draw Point :=
  match start? member with
  | some p => return p
  | none => problem.randomPoint

/-- The members at their start points, and the lowest of their errors. -/
def startMembers (problem : Problem) (start? : Nat → Option Point) (size : Nat) :
    Draw (Array Member × Float32) := do
  let points ← Draw.each (startPoint problem start?) (List.range size)
  let members := points.map fun p => Member.start p (problem.error p)
  return (members.toArray,
    members.foldl (fun best m => lowerTo m.bestValue best) Number.largest)

/-- A swarm before its first move. -/
def start (c : Course) (start? : Nat → Option Point) (size : Nat)
    (trajectory : Option Trajectory) : Draw State := do
  let seed ← Draw.wide
  let machine := Machine.ofSeed c.settings seed
  let (members, bestValue) ← startMembers c.problem start? size
  return {
    machine := { machine with limits := (c.bounds.lower, c.bounds.upper) }
    members, bestValue, trajectory }

/-- A whole run: the start points of the members, then the moves. -/
def run (c : Course) (start? : Nat → Option Point) (size moves : Nat) (record : Bool) :
    Draw State := do
  let trajectory :=
    if record then some (Trajectory.rest size moves c.problem.dimensions) else none
  let s ← start c start? size trajectory
  (List.range moves).foldlM (move c) s

end Swarm
end SwarmEvolution
