import SwarmEvolution.Proofs.Code.Contexts

/-! Points in preorder. Counting, looking up and replacing points by their indices agree with the
list of all points, in which the tree at a point takes up one block. Another tree in the place of a
point exchanges its block; beside it only the points that it is below change. -/
namespace SwarmEvolution
namespace Code

mutual

/-- The points of a tree, each with all that is below it: the tree itself, then those of its items
one after another. -/
def preorder : Code → List Code
  | .atom a => [.atom a]
  | .list items => .list items :: preorderOfAll items

def preorderOfAll : List Code → List Code
  | [] => []
  | c :: rest => c.preorder ++ preorderOfAll rest

end

/-- The point at `j` has the one at `i` below it: the block of its tree goes on from `j` over
`i`. -/
def Ancestor (c : Code) (j i : Nat) : Prop :=
  ∃ d, c.preorder[j]? = some d ∧ j < i ∧ i < j + d.preorder.length

mutual

theorem length_preorder (c : Code) : c.preorder.length = c.points := by
  cases c with
  | atom a => rfl
  | list items =>
    rw [preorder, List.length_cons, length_preorderOfAll items, points, Nat.add_comm]

theorem length_preorderOfAll (cs : List Code) :
    (preorderOfAll cs).length = pointsOfAll cs := by
  cases cs with
  | nil => rfl
  | cons c rest =>
    rw [preorderOfAll, List.length_append, length_preorder c, length_preorderOfAll rest,
      pointsOfAll]

end

theorem preorderOfAll_append (cs ds : List Code) :
    preorderOfAll (cs ++ ds) = preorderOfAll cs ++ preorderOfAll ds := by
  induction cs with
  | nil => rfl
  | cons c cs ih => simp only [List.cons_append, preorderOfAll, ih, List.append_assoc]

theorem mem_preorderOfAll {d : Code} {cs : List Code} :
    d ∈ preorderOfAll cs ↔ ∃ c ∈ cs, d ∈ c.preorder := by
  induction cs with
  | nil => simp [preorderOfAll]
  | cons c cs ih => simp [preorderOfAll, ih]

mutual

theorem subtree?_eq (c : Code) (n : Nat) : c.subtree? n = c.preorder[n]? := by
  match c, n with
  | .atom a, 0 => rfl
  | .list items, 0 => rfl
  | .atom a, n + 1 => rfl
  | .list items, n + 1 => rw [subtree?, preorder, List.getElem?_cons_succ, subtreeOfAll?_eq items n]

theorem subtreeOfAll?_eq (cs : List Code) (n : Nat) :
    subtreeOfAll? cs n = (preorderOfAll cs)[n]? := by
  match cs with
  | [] => rfl
  | c :: rest =>
    rw [subtreeOfAll?, preorderOfAll]
    split
    case isTrue inside =>
      rw [subtree?_eq c n, List.getElem?_append_left (by rwa [length_preorder])]
    case isFalse beyond =>
      rw [subtreeOfAll?_eq rest, List.getElem?_append_right (by rw [length_preorder]; omega),
        length_preorder]

end

namespace Context

/-- The points before the hole, when `c` fills it. -/
def leading : Context → Code → List Code
  | root, _ => []
  | item outer before after, c =>
    outer.leading (.list (before ++ c :: after)) ++
      .list (before ++ c :: after) :: preorderOfAll before

/-- The points after whatever fills the hole. -/
def trailing : Context → List Code
  | root => []
  | item outer _ after => preorderOfAll after ++ outer.trailing

variable (context : Context) (c d : Code)

/-- What fills the hole is one block. -/
theorem preorder_fill :
    (context.fill c).preorder = context.leading c ++ c.preorder ++ context.trailing := by
  induction context generalizing c with
  | root => exact (List.append_nil _).symm
  | item outer before after ih =>
    rw [fill, ih, preorder, preorderOfAll_append, preorderOfAll, leading, trailing]
    simp only [List.append_assoc, List.cons_append]

theorem length_leading : (context.leading c).length = context.index := by
  induction context generalizing c with
  | root => rfl
  | item outer before after ih =>
    rw [leading, List.length_append, ih, List.length_cons, length_preorderOfAll, index,
      Nat.add_comm 1]

/-- A point before the hole stays as it is, or else the hole is within its block. -/
theorem leading_eq_or_around {j : Nat} (before : j < context.index) :
    (context.leading c)[j]? = (context.leading d)[j]? ∨
      ∃ outer : Context, ∃ e, context.fill c = outer.fill e ∧ outer.index = j ∧
        context.index + c.points ≤ j + e.points := by
  induction context generalizing c d with
  | root => exact absurd before (Nat.not_lt_zero j)
  | item outer left right ih =>
    have inside : (item outer left right).index + c.points ≤
        outer.index + (Code.list (left ++ c :: right)).points := by
      rw [index, Code.points, pointsOfAll_append, pointsOfAll]
      omega
    -- The list around the hole changes itself; it begins at `outer.index`.
    rcases Nat.lt_trichotomy j outer.index with further | rfl | nearer
    · rcases ih (.list (left ++ c :: right)) (.list (left ++ d :: right)) further with
        same | ⟨around, e, filled, place, covers⟩
      · left
        rw [leading, leading, List.getElem?_append_left (by rwa [length_leading]),
          List.getElem?_append_left (by rwa [length_leading]), same]
      · exact .inr ⟨around, e, filled, place, Nat.le_trans inside covers⟩
    · exact .inr ⟨outer, .list (left ++ c :: right), rfl, rfl, inside⟩
    · left
      obtain ⟨k, rfl⟩ := Nat.exists_eq_add_of_lt nearer
      have place : outer.index + k + 1 - outer.index = k + 1 := by omega
      rw [leading, leading, List.getElem?_append_right (by rw [length_leading]; omega),
        List.getElem?_append_right (by rw [length_leading]; omega), length_leading,
        length_leading, place, List.getElem?_cons_succ, List.getElem?_cons_succ]

theorem getElem?_preorder_fill (n : Nat) :
    (context.fill c).preorder[context.index + n]? = (c.preorder ++ context.trailing)[n]? := by
  rw [preorder_fill, List.append_assoc,
    List.getElem?_append_right (by rw [length_leading]; omega), length_leading,
    Nat.add_sub_cancel_left]

theorem ancestor_of_around {outer : Context} {e : Code} (filled : context.fill c = outer.fill e)
    (before : outer.index < context.index)
    (covers : context.index + c.points ≤ outer.index + e.points) :
    (context.fill c).Ancestor outer.index context.index := by
  refine ⟨e, ?_, before, ?_⟩
  · rw [← subtree?_eq, filled, outer.subtree?_index]
  · have positive := c.points_pos
    rw [length_preorder]
    omega

/-- Before the hole a point stays as it is, unless it is one that the hole is below. -/
theorem getElem?_preorder_before {j : Nat} (before : j < context.index)
    (apart : ¬ (context.fill c).Ancestor j context.index) :
    (context.fill d).preorder[j]? = (context.fill c).preorder[j]? := by
  have early (x : Code) : (context.fill x).preorder[j]? = (context.leading x)[j]? := by
    rw [preorder_fill, List.append_assoc, List.getElem?_append_left (by rwa [length_leading])]
  rw [early, early]
  rcases context.leading_eq_or_around c d before with same | ⟨outer, e, filled, rfl, covers⟩
  · exact same.symm
  · exact absurd (context.ancestor_of_around c filled before covers) apart

/-- After the hole the points are the same, wherever what fills it ends. -/
theorem getElem?_preorder_after (j : Nat) :
    (context.fill d).preorder[context.index + d.points + j]? =
      (context.fill c).preorder[context.index + c.points + j]? := by
  have late (x : Code) : (context.fill x).preorder[context.index + x.points + j]? =
      context.trailing[j]? := by
    rw [Nat.add_assoc, getElem?_preorder_fill,
      List.getElem?_append_right (by rw [length_preorder]; omega), length_preorder,
      Nat.add_sub_cancel_left]
  rw [late, late]

end Context

theorem lt_points_of_subtree? {c d : Code} {i : Nat} (found : c.subtree? i = some d) :
    i < c.points := by
  rw [subtree?_eq] at found
  rw [← length_preorder]
  exact (List.getElem?_eq_some_iff.mp found).1

/-- What is found at an index fills the hole there. -/
theorem eq_fill_of_subtree? {c d : Code} {i : Nat} (found : c.subtree? i = some d) :
    ∃ context : Context, c = context.fill d ∧ context.index = i := by
  obtain ⟨context, x, rfl, rfl⟩ := eq_fill (lt_points_of_subtree? found)
  obtain rfl : x = d := Option.some.inj ((context.subtree?_index x).symm.trans found)
  exact ⟨context, rfl, rfl⟩

/-- The tree at a point is a block of the points around it. -/
theorem take_drop_preorder {c d : Code} {i : Nat} (found : c.subtree? i = some d) :
    (c.preorder.drop i).take d.points = d.preorder := by
  obtain ⟨context, rfl, rfl⟩ := eq_fill_of_subtree? found
  rw [context.preorder_fill, List.append_assoc, List.drop_left' (context.length_leading d),
    List.take_left' d.length_preorder]

theorem isSome_replace? (c : Code) (i : Nat) (r : Code) :
    (c.replace? i r).isSome = (c.subtree? i).isSome := by
  by_cases inside : i < c.points
  · obtain ⟨context, d, rfl, rfl⟩ := eq_fill inside
    rw [context.replace?_fill, context.subtree?_index]
    rfl
  · have outside := Nat.le_of_not_lt inside
    have positive := c.points_pos
    rw [replace?, if_neg (by omega), splice?_beyond _ outside, subtree?_eq,
      List.getElem?_eq_none (by rwa [length_preorder])]

/-- Indices count the points in preorder, for measuring, for looking up and for replacing. Another
tree in the place of a point is found there; before its block all points stay as they are but those
that it is below, and after it all points follow as before. -/
theorem addressed_in_preorder (c : Code) :
    c.points = c.preorder.length ∧
    (∀ i, c.subtree? i = c.preorder[i]?) ∧
    (∀ i r, (c.replace? i r).isSome = (c.subtree? i).isSome) ∧
    ∀ i r, i < c.points → ∃ d e,
      c.subtree? i = some d ∧ (c.preorder.drop i).take d.points = d.preorder ∧
      c.replace? i r = some e ∧ e.subtree? i = some r ∧
      d.points ≤ c.points ∧ e.points = c.points - d.points + r.points ∧
      (∀ j < i, ¬ c.Ancestor j i → e.preorder[j]? = c.preorder[j]?) ∧
      ∀ j, e.preorder[i + r.points + j]? = c.preorder[i + d.points + j]? := by
  refine ⟨c.length_preorder.symm, c.subtree?_eq, c.isSome_replace?, fun i r inside => ?_⟩
  obtain ⟨context, d, rfl, rfl⟩ := eq_fill inside
  have found := context.subtree?_index d
  refine ⟨d, context.fill r, found, take_drop_preorder found, context.replace?_fill d r,
    context.subtree?_index r, ?_, ?_, fun j before apart => ?_, fun j => ?_⟩
  · rw [context.points_fill]
    omega
  · rw [context.points_fill, context.points_fill]
    omega
  · exact context.getElem?_preorder_before d r before apart
  · exact context.getElem?_preorder_after d r j

/-- A list of three levels, `((() 1) 2)`. -/
def nestedLists : Code :=
  .list [.list [.list [], .atom (.integer 1)], .atom (.integer 2)]

/-- The one in it is below the lists at 0 and 1, and the empty list at 2 is beside it. -/
theorem nestedLists_addressed :
    3 < nestedLists.points ∧ ∃ d e,
      nestedLists.subtree? 3 = some d ∧ (nestedLists.preorder.drop 3).take d.points = d.preorder ∧
      nestedLists.replace? 3 (.list [.list []]) = some e ∧ e.subtree? 3 = some (.list [.list []]) ∧
      d.points ≤ nestedLists.points ∧
      e.points = nestedLists.points - d.points + (Code.list [.list []]).points ∧
      (∀ j < 3, ¬ nestedLists.Ancestor j 3 → e.preorder[j]? = nestedLists.preorder[j]?) ∧
      ∀ j, e.preorder[3 + (Code.list [.list []]).points + j]? =
        nestedLists.preorder[3 + d.points + j]? :=
  ⟨by decide, (addressed_in_preorder nestedLists).2.2.2 3 (.list [.list []]) (by decide)⟩

end Code
end SwarmEvolution
