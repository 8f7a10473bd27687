import SwarmEvolution.Number.Single

/-! Points of the search space, which the machine's vectors are too. -/
namespace SwarmEvolution

/-- One coordinate per dimension. -/
abbrev Point := List Float32

namespace Point

/-- The Euclidean length before it is rounded to single precision. -/
def euclidean (p : Point) : Float :=
  (Number.sumDouble (p.map fun x => x.toFloat * x.toFloat)).sqrt

/-- The Euclidean length. -/
def magnitude (p : Point) : Float32 := Number.clamp p.euclidean.toFloat32

end Point
end SwarmEvolution
