import SwarmEvolution.Point

/-!
Trajectories: where every member of a swarm was after every move of a run, and how far two of them
lie apart. The coordinates of all points stand in one array. A point that was never recorded is the
origin.
-/
namespace SwarmEvolution

structure Trajectory where
  members : Nat
  moves : Nat
  dimensions : Nat
  /-- The coordinates, member by member and within a member move by move. -/
  points : Array Float32
  size_points : points.size = members * moves * dimensions

namespace Trajectory

/-- A trajectory that rests at the origin. -/
def rest (members moves dimensions : Nat) : Trajectory where
  members
  moves
  dimensions
  points := Array.replicate (members * moves * dimensions) 0
  size_points := Array.size_replicate

/-- Where the coordinates of a point begin. -/
def offset (t : Trajectory) (member move : Nat) : Nat := (member * t.moves + move) * t.dimensions

/-- Coordinates written over those from a place on. -/
def overwrite (xs : Array Float32) (start : Nat) : Point → Array Float32
  | [] => xs
  | x :: p => overwrite (xs.setIfInBounds start x) (start + 1) p

@[simp] theorem size_overwrite (xs : Array Float32) (start : Nat) (p : Point) :
    (overwrite xs start p).size = xs.size := by
  induction p generalizing xs start with
  | nil => rfl
  | cons x p ih => rw [overwrite, ih, Array.size_setIfInBounds]

/-- Records a point. What it has beyond the dimensions is left out, and outside the table nothing
is recorded. -/
def record (t : Trajectory) (member move : Nat) (p : Point) : Trajectory :=
  if member < t.members ∧ move < t.moves then
    { t with
      points := overwrite t.points (t.offset member move) (p.take t.dimensions)
      size_points := by rw [size_overwrite, t.size_points] }
  else t

def point? (t : Trajectory) (member move : Nat) : Option Point :=
  if member < t.members ∧ move < t.moves then
    let start := t.offset member move
    some (t.points.extract start (start + t.dimensions)).toList
  else none

def infinite : Float := 1 / 0

/-- The pieces of one length that coordinates are cut into. The last one has what is left. -/
def chunks (width : Nat) : List Float32 → List Point
  | [] => []
  | x :: xs => (x :: xs.take (width - 1)) :: chunks width (xs.drop (width - 1))
termination_by xs => xs.length

/-- The Euclidean distance of two points. -/
def pointDistance (p q : Point) : Float :=
  (Number.sumDouble (List.zipWith (fun x y => let d := x.toFloat - y.toFloat; d * d) p q)).sqrt

/-- The sum of the distances of matching points; trajectories of different shape are infinitely far
apart. -/
def distance (t u : Trajectory) : Float :=
  if t.members = u.members ∧ t.moves = u.moves ∧ t.dimensions = u.dimensions then
    Number.sumDouble (List.zipWith pointDistance (chunks (max t.dimensions 1) t.points.toList)
      (chunks (max u.dimensions 1) u.points.toList))
  else infinite

/-- The same where one may be missing, which is infinitely far from everything. -/
def distance? : Option Trajectory → Option Trajectory → Float
  | some t, some u => t.distance u
  | _, _ => infinite

end Trajectory
end SwarmEvolution
