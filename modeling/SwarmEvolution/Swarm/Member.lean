import SwarmEvolution.Machine.Run
import SwarmEvolution.Problem.Basic

/-! A member of a swarm: where it is, the best it has found, and its stacks between turns. -/
namespace SwarmEvolution

structure Member where
  best : Point
  bestValue : Float32
  current : Point
  currentValue : Float32
  frame : Frame

namespace Member

/-- A member at its start. Its stacks hold the point, the error there and a success. -/
def start (p : Point) (value : Float32) : Member where
  best := p
  bestValue := value
  current := p
  currentValue := value
  frame :=
    { vectors := Stack.empty.push p
      floats := Stack.empty.push value
      booleans := Stack.empty.push true }

/-- Leaves on the stacks the error of a move and whether it was a success, and after a failure the
best point. -/
def report (m : Member) (value : Float32) (success : Bool) : Member :=
  let frame :=
    { m.frame with
      floats := m.frame.floats.push value
      booleans := m.frame.booleans.push success }
  if success then { m with frame }
  else { m with frame := { frame with vectors := frame.vectors.push m.best } }

/-- Moves a member to the point that its program left on top of the vectors, or leaves it where it
is. A point within the bounds that is no worse than the best becomes the best; a point outside costs
the largest error. -/
def settle (problem : Problem) (frame : Frame) (m : Member) : Member :=
  let current := frame.vectors.top?.getD m.current
  if problem.within current then
    let value := problem.error current
    let m := { m with current, currentValue := value, frame }
    if value ≤ m.bestValue then { m with best := current, bestValue := value }.report value true
    else m.report value false
  else
    let value := Number.outOfBoundsError
    { m with current, currentValue := value, frame }.report value false

end Member

/-- What a program sees of a swarm. -/
def SwarmView.ofMembers (members : Array Member) : SwarmView where
  size := members.size
  position? i best := members[i]?.map fun m => if best then m.best else m.current

/-- The first member with the lowest best error; errors that are not numbers are left out. -/
def bestMember (members : Array Member) : Nat :=
  let values := members.toList.zipIdx.map fun (m, i) => (i, m.bestValue)
  let numbers := values.filter fun (_, x) => !x.isNaN
  (Number.lowest? (numbers.map fun (i, x) => (i, Number.rank x.toBits))).getD 0

end SwarmEvolution
