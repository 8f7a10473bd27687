import Mathlib
import SwarmEvolution.Proofs.Assignment.GuardedRuns

/-! Assignments in double precision. Doubles are in an order that leaves out what is no number, and
infinity stays when anything below it is taken off; this is all that the guards rely on, so they
refuse nothing however other sums and differences are rounded. -/
namespace SwarmEvolution

namespace Number

open Float.Model

section Order

/-- Where a number stands among the others: by its kind, then by its exponent, then by its digits.
What is no number stands nowhere. -/
def standing? : UnpackedFloat → Option (Int ×ₗ Int ×ₗ Int)
  | .notANumber => none
  | .infinity .negative => some (toLex (-2, toLex (0, 0)))
  | .finite .negative mantissa exponent _ => some (toLex (-1, toLex (-exponent, -mantissa)))
  | .zero _ => some (toLex (0, toLex (0, 0)))
  | .finite .positive mantissa exponent _ => some (toLex (1, toLex (exponent, mantissa)))
  | .infinity .positive => some (toLex (2, toLex (0, 0)))

theorem compare_eq_lt_iff (u v : UnpackedFloat) :
    u.compare v = some .lt ↔ ∃ a b, standing? u = some a ∧ standing? v = some b ∧ a < b := by
  have below (e e' : Int) (m m' : Nat) :
      (compare e e').then (compare m m') = .lt ↔ e < e' ∨ e = e' ∧ m < m' := by
    rw [Ordering.then_eq_lt, Int.compare_eq_lt, Int.compare_eq_eq, Nat.compare_eq_lt]
  -- Negative numbers are compared the other way round.
  have above (e e' : Int) (m m' : Nat) :
      (compare e e').then (compare m m') = .gt ↔ e' < e ∨ e = e' ∧ m' < m := by
    rw [Ordering.then_eq_gt, Int.compare_eq_gt, Int.compare_eq_eq, Nat.compare_eq_gt]
  rcases u with (_ | _) | _ | _ | ⟨_ | _, m, e, _⟩ <;>
    rcases v with (_ | _) | _ | _ | ⟨_ | _, m', e', _⟩ <;>
    simp [UnpackedFloat.compare, standing?, Prod.Lex.lt_iff, below, above]
  rfl

end Order

section Doubles

variable {x y z : Float}

theorem double_lt_iff : x < y ↔ ∃ a b, standing? x.toModel.unpack = some a ∧
    standing? y.toModel.unpack = some b ∧ a < b := by
  rw [← compare_eq_lt_iff]
  change decide (x.toModel.unpack.lt y.toModel.unpack = true) = true ↔ _
  rw [decide_eq_true_iff]
  exact beq_iff_eq

theorem double_lt_irrefl (x : Float) : ¬ x < x := by
  rw [double_lt_iff]
  rintro ⟨a, b, left, right, less⟩
  obtain rfl := Option.some.inj (left.symm.trans right)
  exact lt_irrefl a less

theorem double_lt_trans (first : x < y) (second : y < z) : x < z := by
  rw [double_lt_iff] at *
  obtain ⟨a, b, left, middle, below⟩ := first
  obtain ⟨b', c, middle', right, above⟩ := second
  obtain rfl := Option.some.inj (middle.symm.trans middle')
  exact ⟨a, c, left, right, below.trans above⟩

theorem unpack_infinity : (1 / 0 : Float).toModel.unpack = .infinity .positive := rfl

theorem standing?_le_infinity {u : UnpackedFloat} {a : Int ×ₗ Int ×ₗ Int}
    (stands : standing? u = some a) : a ≤ toLex (2, toLex (0, 0)) := by
  rcases u with (_ | _) | _ | _ | ⟨_ | _, m, e, _⟩ <;> cases stands <;>
    simp [Prod.Lex.le_iff]

theorem not_infinity_lt (x : Float) : ¬ 1 / 0 < x := by
  rw [double_lt_iff, unpack_infinity]
  rintro ⟨a, b, infinity, stands, less⟩
  obtain rfl := Option.some.inj infinity
  exact absurd less (standing?_le_infinity stands).not_gt

/-- What is less than anything is less than infinity. -/
theorem lt_infinity (less : x < y) : x < 1 / 0 := by
  rw [double_lt_iff] at less ⊢
  obtain ⟨a, b, left, right, below⟩ := less
  exact ⟨a, _, left, rfl, below.trans_le (standing?_le_infinity right)⟩

/-- Infinity stays when anything below it is taken off. -/
theorem infinity_sub (below : x < 1 / 0) : 1 / 0 - x = 1 / 0 := by
  rw [double_lt_iff, ← compare_eq_lt_iff, unpack_infinity] at below
  change Float.ofModel (.pack (.sub .binary64 (1 / 0 : Float).toModel.unpack x.toModel.unpack)) = _
  rw [unpack_infinity]
  generalize x.toModel.unpack = u at below ⊢
  rcases u with (_ | _) | _ | _ | _
  · rfl
  · contradiction
  · contradiction
  · rfl
  · rfl

end Doubles
end Number

/-- Sums and differences of doubles, however they are rounded. There is nothing to round when a
number below infinity is taken off infinity. -/
structure Rounding where
  add : Float → Float → Float
  sub : Float → Float → Float
  infinity_sub (x : Float) : x < 1 / 0 → sub (1 / 0) x = 1 / 0

/-- The sums and differences that matrices are assigned with, which go to the nearest double. -/
def Rounding.nearest : Rounding := ⟨(· + ·), (· - ·), fun _ => Number.infinity_sub⟩

/-- Doubles under a rounding. -/
def Rounded (_ : Rounding) : Type := Float

namespace Rounded

variable (r : Rounding)

instance : Cost (Rounded r) where
  add := r.add
  sub := r.sub
  lt (x y : Float) := x < y
  zero := (0 : Float)
  infinity := (1 / 0 : Float)
  decLt (x y : Float) := inferInstanceAs (Decidable (x < y))

instance : Cost.Ordered (Rounded r) where
  lt_irrefl := Number.double_lt_irrefl
  lt_trans := Number.double_lt_trans
  not_infinity_lt := Number.not_infinity_lt
  infinity_sub less := r.infinity_sub _ (Number.lt_infinity less)

end Rounded

namespace Assignment

/-- The entry of a matrix of costs; there is none outside its rows. -/
def matrixCost? (rows : Array (Array Float)) (i j : Nat) : Option Float := do
  let row ← rows[i]?
  let c := row.getD j largestDouble
  return if c.isNaN then largestDouble else c

theorem matrixCost?_eq {rows : Array (Array Float)} {i : Nat} (inside : i < rows.size) (j : Nat) :
    matrixCost? rows i j = some (matrixCost rows i j) := by
  rw [matrixCost?, getElem?_eq_getD (d := #[]) inside]
  rfl

/-- Whatever the rows of a matrix hold, and however sums and differences are rounded, no guard
refuses a step: a search for a row reaches a new column every turn and ends within `n + 1` turns,
the way back follows entries that were noted for the same row and comes to column zero, and no index
is out of range. The result has `n` entries, all below `n`. -/
theorem assign_never_refused (r : Rounding) (rows : List (List Float)) :
    let matrix := (rows.map List.toArray).toArray
    let cost? : Nat → Nat → Option (Rounded r) := matrixCost? matrix
    let cost : Nat → Nat → Rounded r := matrixCost matrix
    assign? cost? rows.length = some (assign cost rows.length) ∧
      (assign cost rows.length).length = rows.length ∧
      ∀ column ∈ assign cost rows.length, column < rows.length := by
  intro matrix cost? cost
  have size : matrix.size = rows.length := by simp [matrix]
  have lawful : ∀ i < rows.length, ∀ j < rows.length, cost? i j = some (cost i j) :=
    fun i inside j _ => matrixCost?_eq (size ▸ inside) j
  obtain ⟨granted, below⟩ := assign?_spec lawful
  exact ⟨granted, length_columns _ _, below⟩

example (rows : List (List Float)) :
    let cost : Nat → Nat → Rounded .nearest := matrixCost (rows.map List.toArray).toArray
    assignMatrix rows = assign cost rows.length := rfl

/-- A row whose costs are all infinite is given no column of its own. -/
example : assignMatrix [[1 / 0, 1 / 0], [0 / 0]] = [0, 0] := by decide +kernel

end Assignment
end SwarmEvolution
