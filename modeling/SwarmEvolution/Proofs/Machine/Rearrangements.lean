import Mathlib.Data.List.InsertIdx
import SwarmEvolution.Stack

/-! Rearrangements of a stack. Each of them moves one element between the top and a depth, upwards
or downwards, and keeps the order of all others. So the moves up from a depth and down to it undo
each other, nothing is lost or copied, and what lies below the depth stays in place. -/
namespace SwarmEvolution.Stack

variable {α : Type} {s t u : Stack α} {depth : Nat}

/-- The element at a depth of the first stack is the top of the second one, and all others lie in
the same order. -/
inductive Raised (depth : Nat) : Stack α → Stack α → Prop where
  | intro (a : α) (others : List α) (inside : depth ≤ others.length) :
    Raised depth ⟨others.insertIdx depth a⟩ ⟨a :: others⟩

/-- No element is lost, copied or added, and those below the topmost ones stay in place. -/
structure Rearranged (topmost : Nat) (s t : Stack α) : Prop where
  perm : t.items.Perm s.items
  below : t.items.drop topmost = s.items.drop topmost

theorem Rearranged.refl (topmost : Nat) (s : Stack α) : Rearranged topmost s s := ⟨.refl _, rfl⟩

theorem Rearranged.symm {topmost : Nat} (moved : Rearranged topmost s t) :
    Rearranged topmost t s :=
  ⟨moved.perm.symm, moved.below.symm⟩

namespace Raised

theorem size_eq (raised : Raised depth s t) : s.size = t.size := by
  obtain ⟨a, others, inside⟩ := raised
  exact List.length_insertIdx_of_le_length inside a

theorem left_unique (raised : Raised depth s u) (raised' : Raised depth t u) : s = t := by
  obtain ⟨a, others, -⟩ := raised
  obtain ⟨-, -, -⟩ := raised'
  rfl

theorem right_unique (raised : Raised depth s t) (raised' : Raised depth s u) : t = u := by
  obtain ⟨a, others, inside⟩ := raised
  generalize same : others.insertIdx depth a = items at raised'
  obtain ⟨b, others', inside'⟩ := raised'
  have rest : others = others' :=
    calc
      others = (others.insertIdx depth a).eraseIdx depth := (List.eraseIdx_insertIdx_self a).symm
      _ = others' := by rw [same, List.eraseIdx_insertIdx_self]
  have moved : some a = some b :=
    calc
      some a = (others.insertIdx depth a)[depth]? := by
        rw [List.getElem?_insertIdx_self, if_pos inside]
      _ = some b := by rw [same, List.getElem?_insertIdx_self, if_pos inside']
  rw [rest, Option.some.inj moved]

theorem top (raised : Raised depth s t) : t.top? = s.items[depth]? := by
  obtain ⟨a, others, inside⟩ := raised
  exact (List.getElem?_insertIdx_self.trans (if_pos inside)).symm

theorem rearranged (raised : Raised depth s t) : Rearranged (depth + 1) s t := by
  obtain ⟨a, others, inside⟩ := raised
  refine ⟨(List.perm_insertIdx a others inside).symm, List.ext_getElem? fun i => ?_⟩
  have beyond : depth < depth + 1 + i := by omega
  rw [List.getElem?_drop, List.getElem?_drop, List.getElem?_insertIdx_of_gt beyond,
    Nat.add_right_comm, List.getElem?_cons_succ, Nat.add_sub_cancel]

end Raised

theorem eq_empty_or_occupied (s : Stack α) : s = empty ∨ 0 < s.size := by
  obtain ⟨_ | ⟨a, others⟩⟩ := s
  · exact .inl rfl
  · exact .inr (Nat.succ_pos _)

section Depths

theorem clampDepth_congr (same : s.size = t.size) (depth : Int) :
    s.clampDepth depth = t.clampDepth depth := by rw [clampDepth, same, clampDepth]

theorem clampDepth_lt (occupied : 0 < s.size) (depth : Int) : s.clampDepth depth < s.size := by
  unfold clampDepth
  omega

theorem yank_raised (occupied : 0 < s.size) (depth : Int) :
    Raised (s.clampDepth depth) s (s.yank depth) := by
  have inside : s.clampDepth depth < s.items.length := clampDepth_lt occupied depth
  unfold yank
  simp only [List.getElem?_eq_getElem inside]
  generalize s.clampDepth depth = d at inside
  have room : d ≤ (s.items.eraseIdx d).length := by
    rw [List.length_eraseIdx_of_lt inside]
    exact Nat.le_pred_of_lt inside
  have raised := Raised.intro s.items[d] (s.items.eraseIdx d) room
  rwa [List.insertIdx_eraseIdx_getElem inside] at raised

theorem shove_raised (occupied : 0 < s.size) (depth : Int) :
    Raised (s.clampDepth depth) (s.shove depth) s := by
  have inside := clampDepth_lt occupied depth
  obtain ⟨_ | ⟨a, others⟩⟩ := s
  · contradiction
  · exact .intro a others (Nat.le_of_lt_succ inside)

theorem shove_yank (s : Stack α) (depth : Int) : (s.yank depth).shove depth = s := by
  rcases s.eq_empty_or_occupied with rfl | occupied
  · rfl
  have up := yank_raised occupied depth
  have down := shove_raised (up.size_eq ▸ occupied) depth
  rw [← clampDepth_congr up.size_eq] at down
  exact down.left_unique up

theorem yank_shove (s : Stack α) (depth : Int) : (s.shove depth).yank depth = s := by
  rcases s.eq_empty_or_occupied with rfl | occupied
  · rfl
  have down := shove_raised occupied depth
  have up := yank_raised (down.size_eq ▸ occupied) depth
  rw [clampDepth_congr down.size_eq] at up
  exact up.right_unique down

theorem yank_rearranged (s : Stack α) (depth : Int) :
    Rearranged (s.clampDepth depth + 1) s (s.yank depth) := by
  rcases s.eq_empty_or_occupied with rfl | occupied
  · exact .refl _ _
  · exact (yank_raised occupied depth).rearranged

theorem shove_rearranged (s : Stack α) (depth : Int) :
    Rearranged (s.clampDepth depth + 1) s (s.shove depth) := by
  rcases s.eq_empty_or_occupied with rfl | occupied
  · exact .refl _ _
  · exact (shove_raised occupied depth).rearranged.symm

theorem top_yank (s : Stack α) (depth : Int) :
    (s.yank depth).top? = s.items[s.clampDepth depth]? := by
  rcases s.eq_empty_or_occupied with rfl | occupied
  · rfl
  · exact (yank_raised occupied depth).top

theorem getElem?_shove (s : Stack α) (depth : Int) :
    (s.shove depth).items[s.clampDepth depth]? = s.top? := by
  rcases s.eq_empty_or_occupied with rfl | occupied
  · rfl
  · exact (shove_raised occupied depth).top.symm

/-- A depth that the stack has needs no clamping. -/
theorem eq_yank (inside : depth < s.size) (raised : Raised depth s t) : t = s.yank depth := by
  have up := yank_raised (Nat.zero_lt_of_lt inside) depth
  have same : s.clampDepth depth = depth := by
    unfold clampDepth
    omega
  rw [same] at up
  exact raised.right_unique up

end Depths

section Topmost

theorem swap_raised (two : 2 ≤ s.size) : Raised 1 s s.swap := by
  obtain ⟨_ | ⟨a, _ | ⟨b, others⟩⟩⟩ := s
  · contradiction
  · contradiction
  · exact .intro b (a :: others) (Nat.le_add_left 1 _)

theorem rot_raised (three : 3 ≤ s.size) : Raised 2 s s.rot := by
  obtain ⟨_ | ⟨a, _ | ⟨b, _ | ⟨c, others⟩⟩⟩⟩ := s
  · contradiction
  · contradiction
  · contradiction
  · exact .intro c (a :: b :: others) (Nat.le_add_left 2 _)

theorem swap_of_size_lt (short : s.size < 2) : s.swap = s := by
  obtain ⟨_ | ⟨a, _ | ⟨b, others⟩⟩⟩ := s
  · rfl
  · rfl
  · exact absurd short (Nat.not_lt.mpr (Nat.le_add_left 2 _))

theorem rot_of_size_lt (short : s.size < 3) : s.rot = s := by
  obtain ⟨_ | ⟨a, _ | ⟨b, _ | ⟨c, others⟩⟩⟩⟩ := s
  · rfl
  · rfl
  · rfl
  · exact absurd short (Nat.not_lt.mpr (Nat.le_add_left 3 _))

/-- All depths of a single element are its own. -/
theorem yank_of_size_lt (short : s.size < 2) (depth : Int) : s.yank depth = s := by
  obtain ⟨_ | ⟨a, _ | ⟨b, others⟩⟩⟩ := s
  · rfl
  · simp [yank, clampDepth, size]
  · exact absurd short (Nat.not_lt.mpr (Nat.le_add_left 2 _))

theorem swap_rearranged (s : Stack α) : Rearranged 2 s s.swap := by
  by_cases two : 2 ≤ s.size
  · exact (swap_raised two).rearranged
  · rw [swap_of_size_lt (Nat.lt_of_not_ge two)]
    exact .refl _ _

theorem rot_rearranged (s : Stack α) : Rearranged 3 s s.rot := by
  by_cases three : 3 ≤ s.size
  · exact (rot_raised three).rearranged
  · rw [rot_of_size_lt (Nat.lt_of_not_ge three)]
    exact .refl _ _

theorem swap_eq_yank (s : Stack α) : s.swap = s.yank 1 := by
  by_cases two : 2 ≤ s.size
  · exact eq_yank two (swap_raised two)
  · have short := Nat.lt_of_not_ge two
    rw [swap_of_size_lt short, yank_of_size_lt short]

/-- With two elements there is no third one, but the depth is clamped to that of the second. -/
theorem rot_eq_yank (notTwo : s.size ≠ 2) : s.rot = s.yank 2 := by
  by_cases three : 3 ≤ s.size
  · exact eq_yank three (rot_raised three)
  · rw [rot_of_size_lt (Nat.lt_of_not_ge three), yank_of_size_lt (by omega)]

theorem dup_eq_yankDup (s : Stack α) : s.dup = s.yankDup 0 := by
  obtain ⟨_ | ⟨a, others⟩⟩ := s
  · rfl
  · rfl

end Topmost

/-- A move up from a depth and a move down to it undo each other in either order, at every depth,
also below zero and beyond the end. They and the moves of the two or three topmost elements keep
all elements, and everything below in place. The latter are moves up from depths one and two, and
the copy of the top is one from depth zero. -/
theorem rearrangements_fit (s : Stack α) :
    (∀ depth : Int,
      (s.yank depth).shove depth = s ∧ (s.shove depth).yank depth = s ∧
      (s.yank depth).top? = s.items[s.clampDepth depth]? ∧
      (s.shove depth).items[s.clampDepth depth]? = s.top? ∧
      Rearranged (s.clampDepth depth + 1) s (s.yank depth) ∧
      Rearranged (s.clampDepth depth + 1) s (s.shove depth)) ∧
    Rearranged 2 s s.swap ∧ Rearranged 3 s s.rot ∧
    s.swap = s.yank 1 ∧ (s.size ≠ 2 → s.rot = s.yank 2) ∧ s.dup = s.yankDup 0 :=
  ⟨fun depth => ⟨s.shove_yank depth, s.yank_shove depth, s.top_yank depth, s.getElem?_shove depth,
      s.yank_rearranged depth, s.shove_rearranged depth⟩,
    s.swap_rearranged, s.rot_rearranged, s.swap_eq_yank, rot_eq_yank, s.dup_eq_yankDup⟩

/-- Three integers. -/
def countdown : Stack Int32 := ⟨[3, 2, 1]⟩

/-- A depth below zero is that of the top, and one beyond the end that of the last element. -/
theorem countdown_rearrangements :
    countdown.size ≠ 2 ∧
    (countdown.yank 99).items = [1, 3, 2] ∧ (countdown.yank 99).shove 99 = countdown ∧
    (countdown.shove (-4)).yank (-4) = countdown ∧
    countdown.rot.items = [1, 3, 2] ∧ countdown.rot = countdown.yank 2 := by
  have three : countdown.size ≠ 2 := by decide
  obtain ⟨moves, -, -, -, rotated, -⟩ := rearrangements_fit countdown
  exact ⟨three, by decide, (moves 99).1, (moves (-4)).2.1, by decide, rotated three⟩

end SwarmEvolution.Stack
