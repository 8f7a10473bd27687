import SwarmEvolution.Point
import SwarmEvolution.Sampling.Draw

/-! Optimisation problems: a box of the search space and the error of each point. -/
namespace SwarmEvolution

/-- A range of values, both ends included. -/
structure Interval (κ : Type) where
  lower : κ
  upper : κ

namespace Interval

variable {κ : Type}

def contains [LE κ] [DecidableLE κ] (i : Interval κ) (x : κ) : Bool := i.lower ≤ x && x ≤ i.upper

def range [Sub κ] (i : Interval κ) : κ := i.upper - i.lower

/-- The value at a fraction of the way from the lower end to the upper one. -/
def along [Sub κ] [Mul κ] [Add κ] (i : Interval κ) (fraction : κ) : κ :=
  fraction * i.range + i.lower

/-- Whether the range neither reaches down to zero nor ends before it begins. -/
def isPositive [OfNat κ 0] [LE κ] [DecidableLE κ] [LT κ] [DecidableLT κ] (i : Interval κ) : Bool :=
  !(i.lower ≤ 0 || i.upper < i.lower)

end Interval

/-- A box of a search space over any numbers. -/
structure Box (κ : Type) where
  dimensions : Nat
  /-- The bounds in each dimension. -/
  bound : Nat → Interval κ

namespace Box

variable {κ : Type}

/-- The bounds in all dimensions. -/
def bounds (b : Box κ) : List (Interval κ) := (List.range b.dimensions).map b.bound

/-- Whether a point has the right length and lies within all bounds. -/
def contains [LE κ] [DecidableLE κ] (b : Box κ) (x : List κ) : Bool :=
  x.length = b.dimensions && x.zipIdx.all fun (x, i) => (b.bound i).contains x

end Box

structure Problem extends Box Float32 where
  name : String
  /-- How far the value of a point lies above the optimum. -/
  error : Point → Float32

namespace Problem

/-- Whether a point lies in the box. -/
def within (p : Problem) (x : Point) : Bool := p.toBox.contains x

/-- A point drawn from the box. -/
def randomPoint (p : Problem) : Sampling.Draw Point :=
  Sampling.Draw.each (fun i => return i.along (← Sampling.Draw.unit)) p.bounds

end Problem
end SwarmEvolution
