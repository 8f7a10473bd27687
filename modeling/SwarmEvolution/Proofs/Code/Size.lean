import SwarmEvolution.Code.Basic

/-! Sizes of code. An edit that puts less in the place of a point than was there makes the code
smaller, wherever the point lies. -/
namespace SwarmEvolution

namespace Code

theorem points_pos (c : Code) : 0 < c.points := by
  cases c with
  | atom a => exact Nat.one_pos
  | list items =>
    rw [points]
    omega

theorem pointsOfAll_append (cs ds : List Code) :
    pointsOfAll (cs ++ ds) = pointsOfAll cs + pointsOfAll ds := by
  induction cs with
  | nil => simp [pointsOfAll]
  | cons c cs ih =>
    simp only [List.cons_append, pointsOfAll, ih]
    omega

theorem points_le_pointsOfAll {c : Code} {cs : List Code} (member : c ∈ cs) :
    c.points ≤ pointsOfAll cs := by
  induction cs with
  | nil => contradiction
  | cons d cs ih =>
    simp only [pointsOfAll]
    rcases List.mem_cons.mp member with rfl | inside
    · omega
    · have := ih inside
      omega

theorem pointsOfAll_tail_le (cs : List Code) : pointsOfAll cs.tail ≤ pointsOfAll cs := by
  cases cs with
  | nil => exact Nat.le_refl _
  | cons c cs => exact Nat.le_add_left _ _

/-- Taking a list apart loses its own point; an atom is its only item. -/
theorem pointsOfAll_toItems_le (c : Code) : pointsOfAll c.toItems ≤ c.points := by
  cases c with
  | atom a => simp [toItems, pointsOfAll]
  | list items => simp [toItems, points]

end Code

namespace Program

theorem points_ofCode_le (c : Code) : (ofCode c).points ≤ max c.points 2 := by
  cases c with
  | atom a => exact Nat.le_max_right ..
  | list items => exact Nat.le_max_left ..

end Program
end SwarmEvolution
