import Mathlib.Algebra.Order.Field.Rat
import Mathlib.Data.Set.Function
import Mathlib.Tactic.Linarith
import Mathlib.Tactic.Positivity
import SwarmEvolution.Problem.Transform
import SwarmEvolution.Proofs.Sampling.Outcomes

/-! Transformed boxes in exact arithmetic. Each axis maps its bounds outward by scale and offset and
points back by the inverse of that, then perhaps reflects them in the middle of the inner bounds,
which keeps these. So a point is in the transformed box exactly if the point that it stands for is
in the inner one, and every point of the inner box is stood for once. -/
namespace SwarmEvolution

open Sampling Draw

namespace Interval

variable {i : Interval ℚ} {x : ℚ}

theorem contains_iff : i.contains x ↔ i.lower ≤ x ∧ x ≤ i.upper := by
  rw [contains, Bool.and_eq_true, decide_eq_true_iff, decide_eq_true_iff]

theorem isPositive_iff : i.isPositive ↔ 0 < i.lower ∧ i.lower ≤ i.upper := by
  simp [isPositive]

theorem along_contains {fraction : ℚ} (ordered : i.lower ≤ i.upper) (nonneg : 0 ≤ fraction)
    (below : fraction < 1) : i.contains (i.along fraction) := by
  have width : 0 ≤ i.range := sub_nonneg.mpr ordered
  have part : fraction * i.range ≤ i.range := mul_le_of_le_one_left width below.le
  have positive : 0 ≤ fraction * i.range := mul_nonneg nonneg width
  rw [contains_iff, along]
  constructor
  · linarith
  · rw [range] at part ⊢
    linarith

/-- Reflection in the middle keeps the bounds. -/
theorem contains_reflect : i.contains (i.lower + i.upper - x) ↔ i.contains x := by
  rw [contains_iff, contains_iff]
  constructor
  · rintro ⟨low, high⟩
    constructor <;> linarith
  · rintro ⟨low, high⟩
    constructor <;> linarith

end Interval

namespace Axis

variable {a : Axis ℚ} {inner : Interval ℚ} {x y : ℚ}

/-- The transformed coordinate that stands for a given one. -/
def forth (a : Axis ℚ) (inner : Interval ℚ) (y : ℚ) : ℚ :=
  (if a.flip then inner.lower + inner.upper - y else y) * a.scale + a.offset

section Positive

variable (positive : 0 < a.scale)

include positive

theorem bounds_lt (proper : inner.lower < inner.upper) :
    (a.bounds inner).lower < (a.bounds inner).upper :=
  add_lt_add_left (mul_lt_mul_of_pos_right proper positive) a.offset

theorem contains_bounds_iff : (a.bounds inner).contains x ↔ inner.contains (a.back inner x) := by
  have unflipped : (a.bounds inner).contains x ↔ inner.contains ((x - a.offset) / a.scale) := by
    rw [Interval.contains_iff, Interval.contains_iff, le_div_iff₀ positive, div_le_iff₀ positive,
      le_sub_iff_add_le, sub_le_iff_le_add]
    rfl
  rw [unflipped, back]
  split
  · exact Interval.contains_reflect.symm
  · rfl

theorem back_forth : a.back inner (a.forth inner y) = y := by
  have nonzero : a.scale ≠ 0 := positive.ne'
  unfold back forth
  split
  · simp [nonzero]
  · simp [nonzero]

theorem forth_back : a.forth inner (a.back inner x) = x := by
  have nonzero : a.scale ≠ 0 := positive.ne'
  unfold back forth
  split
  · simp [nonzero]
  · simp [nonzero]

end Positive
end Axis

namespace Box

variable {b : Box ℚ} {x : List ℚ}

theorem contains_iff : b.contains x ↔
    x.length = b.dimensions ∧ ∀ (k : Nat) (inside : k < x.length), (b.bound k).contains x[k] := by
  rw [contains, Bool.and_eq_true, decide_eq_true_iff, List.all_eq_true]
  refine and_congr_right fun _ => ?_
  constructor
  · intro all k inside
    exact all (x[k], k) (List.mem_zipIdx_iff_getElem?.mpr (List.getElem?_eq_getElem inside))
  · rintro all ⟨v, k⟩ member
    obtain ⟨inside, same⟩ := List.getElem?_eq_some_iff.mp (List.mem_zipIdx_iff_getElem?.mp member)
    change x[k] = v at same
    exact same ▸ all k inside

/-- The bounds in each dimension enclose more than one value. -/
def Proper (b : Box ℚ) : Prop := ∀ k < b.dimensions, (b.bound k).lower < (b.bound k).upper

end Box

namespace Axes

variable {t : Axes ℚ} {x : List ℚ}

/-- The point each of whose coordinates is mapped along its own axis. -/
def mapPoint (t : Axes ℚ) (f : Axis ℚ → Nat → ℚ → ℚ) (x : List ℚ) : List ℚ :=
  List.zipWith (fun (a, k) x => f a k x) t.zipIdx x

variable {f g : Axis ℚ → Nat → ℚ → ℚ}

theorem length_mapPoint (even : x.length = t.length) : (t.mapPoint f x).length = x.length := by
  rw [mapPoint, List.length_zipWith, List.length_zipIdx, even, Nat.min_self]

theorem getElem_mapPoint {k : Nat} (inside : k < (t.mapPoint f x).length) (among : k < t.length)
    (within : k < x.length) : (t.mapPoint f x)[k] = f t[k] k x[k] := by
  simp [mapPoint]

theorem mapPoint_inverse (even : x.length = t.length)
    (inverse : ∀ a ∈ t, ∀ k v, g a k (f a k v) = v) : t.mapPoint g (t.mapPoint f x) = x := by
  have same : (t.mapPoint f x).length = x.length := length_mapPoint even
  have length := (length_mapPoint (f := g) (same.trans even)).trans same
  refine List.ext_getElem length fun k inside within => ?_
  have among : k < t.length := even ▸ within
  have mapped : k < (t.mapPoint f x).length := same ▸ within
  rw [getElem_mapPoint inside among mapped, getElem_mapPoint mapped among within,
    inverse _ (List.getElem_mem among)]

/-- All scales are positive. -/
def Positive (t : Axes ℚ) : Prop := ∀ a ∈ t, 0 < a.scale

section Boxes

variable {b : Box ℚ}

theorem bound_eq {k : Nat} (inside : k < t.length) (inner : Nat → Interval ℚ) :
    t.bound inner k = t[k].bounds (inner k) := by
  rw [bound, List.getElem?_eq_getElem inside]

/-- The point that stands for a given one. -/
def forth (t : Axes ℚ) (bound : Nat → Interval ℚ) (y : List ℚ) : List ℚ :=
  t.mapPoint (fun a k y => a.forth (bound k) y) y

theorem back_eq (bound : Nat → Interval ℚ) (x : List ℚ) :
    t.back bound x = t.mapPoint (fun a k x => a.back (bound k) x) x := rfl

theorem length_back (bound : Nat → Interval ℚ) (even : x.length = t.length) :
    (t.back bound x).length = x.length := by
  rw [back_eq, length_mapPoint even]

theorem getElem_back {bound : Nat → Interval ℚ} {k : Nat} (inside : k < (t.back bound x).length)
    (among : k < t.length) (within : k < x.length) :
    (t.back bound x)[k] = t[k].back (bound k) x[k] := by
  simp only [back_eq]
  rw [getElem_mapPoint _ among within]

variable (positive : t.Positive) (even : t.length = b.dimensions)

include positive even

theorem transformed_proper (proper : b.Proper) : (b.transformed t).Proper := fun k inside => by
  have among : k < t.length := even ▸ inside
  have bounds : (b.transformed t).bound k = t[k].bounds (b.bound k) := bound_eq among b.bound
  rw [bounds]
  exact Axis.bounds_lt (positive _ (List.getElem_mem among)) (proper k inside)

theorem contains_transformed_iff (length : x.length = b.dimensions) :
    (b.transformed t).contains x ↔ b.contains (t.back b.bound x) := by
  have same : (t.back b.bound x).length = x.length := length_back b.bound (length.trans even.symm)
  have coordinate {k : Nat} (inside : k < x.length) (within : k < (t.back b.bound x).length) :
      ((b.transformed t).bound k).contains x[k] ↔
        (b.bound k).contains (t.back b.bound x)[k] := by
    have among : k < t.length := by omega
    have bounds : (b.transformed t).bound k = t[k].bounds (b.bound k) := bound_eq among b.bound
    rw [bounds, getElem_back within among inside]
    exact Axis.contains_bounds_iff (positive _ (List.getElem_mem among))
  rw [Box.contains_iff, Box.contains_iff]
  constructor
  · rintro ⟨-, inside⟩
    exact ⟨same.trans length, fun k within => (coordinate (same ▸ within) within).mp (inside k _)⟩
  · rintro ⟨-, within⟩
    exact ⟨length, fun k inside =>
      (coordinate inside (same.symm ▸ inside)).mpr (within k (same.symm ▸ inside))⟩

theorem back_forth (length : x.length = b.dimensions) :
    t.back b.bound (t.forth b.bound x) = x := by
  rw [back_eq, forth]
  exact mapPoint_inverse (length.trans even.symm) fun a member k v =>
    Axis.back_forth (positive a member)

theorem forth_back (length : x.length = b.dimensions) :
    t.forth b.bound (t.back b.bound x) = x := by
  rw [back_eq, forth]
  exact mapPoint_inverse (length.trans even.symm) fun a member k v =>
    Axis.forth_back (positive a member)

/-- Going back takes the points of the transformed box to those of the inner one, each of which
comes from one point. -/
theorem back_bijOn : Set.BijOn (t.back b.bound) {x | (b.transformed t).contains x}
    {y | b.contains y} := by
  have length {x : List ℚ} (member : (b.transformed t).contains x) : x.length = b.dimensions :=
    (Box.contains_iff.mp member).1
  have length' {y : List ℚ} (member : b.contains y) : y.length = b.dimensions :=
    (Box.contains_iff.mp member).1
  have inverse : Set.InvOn (t.forth b.bound) (t.back b.bound) {x | (b.transformed t).contains x}
      {y | b.contains y} :=
    ⟨fun x member => forth_back positive even (length member),
      fun y member => back_forth positive even (length' member)⟩
  refine inverse.bijOn (fun x member => ?_) fun y member => ?_
  · exact (contains_transformed_iff positive even (length member)).mp member
  · have right : (t.forth b.bound y).length = b.dimensions :=
      (length_mapPoint ((length' member).trans even.symm)).trans (length' member)
    refine (contains_transformed_iff positive even right).mpr ?_
    rw [back_forth positive even (length' member)]
    exact member

end Boxes

section Drawing

variable {fraction : Draw ℚ} {scale : Interval ℚ}

theorem draw_spec (unit : fraction.Always fun v => 0 ≤ v ∧ v < 1)
    (ordered : scale.lower ≤ scale.upper) (translate : Interval ℚ) (bounds : List (Interval ℚ)) :
    (draw fraction scale translate bounds).Always fun t =>
      t.length = bounds.length ∧ ∀ a ∈ t, scale.contains a.scale := by
  have one : (do return scale.along (← fraction) : Draw ℚ).Always fun s => scale.contains s :=
    unit.bind fun v between => always_pure (Interval.along_contains ordered between.1 between.2)
  have scales : (each (fun _ : Interval ℚ => do return scale.along (← fraction)) bounds).Always
      fun scales => scales.length = bounds.length ∧ ∀ s ∈ scales, scale.contains s := fun random =>
    ⟨each_length _ _ random, always_each (fun _ _ => one) random⟩
  refine scales.bind fun scales inside => (each_length _ _).bind fun offsets many =>
    (each_length _ _).bind fun flips count => always_pure ?_
  obtain ⟨length, within⟩ := inside
  constructor
  · rw [List.length_zipWith, List.length_zip, length, many, count, Nat.min_self, Nat.min_self]
  · intro a member
    obtain ⟨k, below, rfl⟩ := List.mem_iff_getElem.mp member
    rw [List.getElem_zipWith]
    exact within _ (List.getElem_mem _)

end Drawing

end Axes

/-- The draw of a fraction in exact arithmetic: a multiple of `2 ^ -24` from one word. -/
def exactFraction : Draw ℚ := do
  let w ← word
  return (w >>> 8).toNat / 2 ^ 24

theorem exactFraction_unit : exactFraction.Always fun v => 0 ≤ v ∧ v < 1 :=
  always_bind fun w => always_pure <| by
    have fits : (w >>> 8).toNat < 2 ^ 24 := by
      have := w.toNat_lt
      rw [UInt32.toNat_shiftRight, Nat.shiftRight_eq_div_pow]
      change w.toNat / 2 ^ 8 < 2 ^ 24
      omega
    have small : ((w >>> 8).toNat : ℚ) < 2 ^ 24 := by exact_mod_cast fits
    constructor
    · positivity
    · rw [div_lt_one (by positivity)]
      exact small

/-- For a box with proper bounds and a range of scales that settings are accepted with, all scales
that are drawn lie in the range, and the transformed bounds are proper. A point of the right length
is within them exactly if the point that it stands for is in the inner box, and going back takes the
transformed box onto the inner one, point by point. -/
theorem transformed_box_goes_back {inner : Box ℚ} (proper : inner.Proper) {scale : Interval ℚ}
    (accepted : scale.isPositive) (translate : Interval ℚ) (random : Stream) :
    let t := (Axes.draw exactFraction scale translate inner.bounds random).1
    let outer := inner.transformed t
    t.length = inner.dimensions ∧ (∀ a ∈ t, scale.contains a.scale) ∧ outer.Proper ∧
      (∀ x, x.length = inner.dimensions →
        (outer.contains x ↔ inner.contains (t.back inner.bound x))) ∧
      Set.BijOn (t.back inner.bound) {x | outer.contains x} {y | inner.contains y} := by
  intro t outer
  obtain ⟨lower, ordered⟩ := Interval.isPositive_iff.mp accepted
  obtain ⟨length, inside⟩ : t.length = inner.bounds.length ∧ ∀ a ∈ t, scale.contains a.scale :=
    Axes.draw_spec exactFraction_unit ordered translate inner.bounds random
  have even : t.length = inner.dimensions := by
    rw [length, Box.bounds, List.length_map, List.length_range]
  have positive : t.Positive := fun a member =>
    lower.trans_le (Interval.contains_iff.mp (inside a member)).1
  exact ⟨even, inside, Axes.transformed_proper positive even proper,
    fun x right => Axes.contains_transformed_iff positive even right,
    Axes.back_bijOn positive even⟩

/-- A box with other bounds in each of its two dimensions, the second without a middle at zero. -/
def oblong : Box ℚ := ⟨2, fun k => if k = 0 then ⟨-1, 1⟩ else ⟨-5, 10⟩⟩

theorem oblong_goes_back :
    oblong.Proper ∧ Interval.isPositive ⟨1 / 2, (2 : ℚ)⟩ ∧
    let t := (Axes.draw exactFraction ⟨1 / 2, 2⟩ ⟨-1 / 2, 1 / 2⟩ oblong.bounds (.ofSeed 3)).1
    let outer := oblong.transformed t
    t.length = 2 ∧ (∀ a ∈ t, Interval.contains ⟨1 / 2, 2⟩ a.scale) ∧ outer.Proper ∧
      (outer.contains [0, 0] ↔ oblong.contains (t.back oblong.bound [0, 0])) ∧
      Set.BijOn (t.back oblong.bound) {x | outer.contains x} {y | oblong.contains y} := by
  have proper : oblong.Proper := by
    intro k inside
    rw [oblong]
    dsimp only
    split <;> norm_num
  have accepted : Interval.isPositive ⟨1 / 2, (2 : ℚ)⟩ := Interval.isPositive_iff.mpr (by norm_num)
  obtain ⟨length, inside, outside, same, bijection⟩ :=
    transformed_box_goes_back proper accepted ⟨-1 / 2, 1 / 2⟩ (.ofSeed 3)
  exact ⟨proper, accepted, length, inside, outside, same [0, 0] rfl, bijection⟩

end SwarmEvolution
