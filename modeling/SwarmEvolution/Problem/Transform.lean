import SwarmEvolution.Problem.Basic

/-!
Transformed problems: each coordinate is scaled, shifted and perhaps reflected, so that nothing can
be learned about where the optimum lies. The arithmetic is written for any numbers, of which
single-precision ones are the instance that runs.
-/
namespace SwarmEvolution

/-- What is done to one coordinate. -/
structure Axis (κ : Type) where
  scale : κ
  offset : κ
  /-- Whether the coordinate is reflected in the middle of its bounds. -/
  flip : Bool

namespace Axis

variable {κ : Type} [Add κ] [Sub κ] [Mul κ] [Div κ]

/-- The bounds after the transformation. -/
def bounds (a : Axis κ) (inner : Interval κ) : Interval κ :=
  ⟨inner.lower * a.scale + a.offset, inner.upper * a.scale + a.offset⟩

/-- The coordinate that a transformed one stands for. -/
def back (a : Axis κ) (inner : Interval κ) (x : κ) : κ :=
  let mapped := (x - a.offset) / a.scale
  if a.flip then inner.lower + inner.upper - mapped else mapped

/-- An offset at a fraction of the translation, which itself counts in ranges of the bounds. -/
def offsetAt (translate : Interval κ) (range fraction : κ) : κ :=
  fraction * (translate.upper - translate.lower) * range + translate.lower * range

end Axis

/-- One axis per dimension. -/
abbrev Axes (κ : Type) := List (Axis κ)

namespace Axes

variable {κ : Type} [Add κ] [Sub κ] [Mul κ] [Div κ]

/-- The point that a transformed one stands for, where `bound` are the untransformed bounds. -/
def back (t : Axes κ) (bound : Nat → Interval κ) (x : List κ) : List κ :=
  List.zipWith (fun (a, i) x => a.back (bound i) x) t.zipIdx x

/-- The transformed bounds in one dimension. -/
def bound (t : Axes κ) (inner : Nat → Interval κ) (i : Nat) : Interval κ :=
  match t[i]? with
  | some a => a.bounds (inner i)
  | none => inner i

/-- Draws the scales of all axes, then the offsets, then the reflections, where `fraction` draws a
number from zero up to, not including, one. -/
def draw (fraction : Sampling.Draw κ) (scale translate : Interval κ)
    (bounds : List (Interval κ)) : Sampling.Draw (Axes κ) := do
  let scales ← Sampling.Draw.each (fun _ => return scale.along (← fraction)) bounds
  let offsets ← Sampling.Draw.each
    (fun i => return Axis.offsetAt translate i.range (← fraction)) bounds
  let flips ← Sampling.Draw.each (fun _ => Sampling.Draw.coin) bounds
  return List.zipWith (fun scale (offset, flip) => ⟨scale, offset, flip⟩) scales
    (offsets.zip flips)

end Axes

/-- A box seen through the axes. -/
def Box.transformed {κ : Type} [Add κ] [Sub κ] [Mul κ] [Div κ] (b : Box κ) (t : Axes κ) :
    Box κ where
  dimensions := b.dimensions
  bound := t.bound b.bound

/-- The transformation of a problem. -/
abbrev Transform := Axes Float32

def Transform.draw (scale translate : Interval Float32) (bounds : List (Interval Float32)) :
    Sampling.Draw Transform :=
  Axes.draw Sampling.Draw.unit scale translate bounds

/-- A problem seen through a transformation. -/
def Problem.transformed (p : Problem) (t : Transform) : Problem where
  toBox := p.toBox.transformed t
  name := p.name
  error x := p.error (t.back p.bound x)

end SwarmEvolution
