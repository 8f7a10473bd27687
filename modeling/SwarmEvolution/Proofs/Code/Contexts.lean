import SwarmEvolution.Proofs.Code.Size

/-! Code around a point. Every point fills a hole in the code around it, the size of the lists and
items before the hole is the point's index, and an edit fills the same hole with something else. -/
namespace SwarmEvolution
namespace Code

/-- Code with a hole in it; the list that the hole is an item of fills a hole further out. -/
inductive Context where
  | root
  | item (outer : Context) (before after : List Code)

namespace Context

def fill : Context → Code → Code
  | root, c => c
  | item outer before after, c => outer.fill (.list (before ++ c :: after))

/-- The index of the point that fills the hole. -/
def index : Context → Nat
  | root => 0
  | item outer before _ => outer.index + (1 + pointsOfAll before)

/-- The points around the hole. -/
def points : Context → Nat
  | root => 0
  | item outer before after => outer.points + (1 + pointsOfAll before + pointsOfAll after)

/-- The atoms to the left of the hole. -/
def leftAtoms : Context → List Atom
  | root => []
  | item outer before _ => outer.leftAtoms ++ atomsOfAll before

/-- The atoms to the right of the hole. -/
def rightAtoms : Context → List Atom
  | root => []
  | item outer _ after => atomsOfAll after ++ outer.rightAtoms

end Context

theorem atomsOfAll_append (cs ds : List Code) :
    atomsOfAll (cs ++ ds) = atomsOfAll cs ++ atomsOfAll ds := by
  induction cs with
  | nil => rfl
  | cons c cs ih => simp only [List.cons_append, atomsOfAll, ih, List.append_assoc]

theorem atomsOfAll_toItems (c : Code) : atomsOfAll c.toItems = c.atoms := by
  cases c with
  | atom a => rfl
  | list items => rw [toItems, atoms]

/-- Which item of a list a point is in, and which point of that item it is. -/
theorem exists_item {cs : List Code} {n : Nat} (inside : n < pointsOfAll cs) :
    ∃ before c after m, cs = before ++ c :: after ∧ n = pointsOfAll before + m ∧ m < c.points := by
  induction cs generalizing n with
  | nil => exact absurd inside (Nat.not_lt_zero n)
  | cons c cs ih =>
    rw [pointsOfAll] at inside
    by_cases first : n < c.points
    · exact ⟨[], c, cs, n, rfl, (Nat.zero_add n).symm, first⟩
    · obtain ⟨before, d, after, m, rfl, rest, within⟩ := ih (n := n - c.points) (by omega)
      refine ⟨c :: before, d, after, m, rfl, ?_, within⟩
      rw [pointsOfAll]
      omega

theorem subtreeOfAll?_item (before after : List Code) {c : Code} {m : Nat} (inside : m < c.points) :
    subtreeOfAll? (before ++ c :: after) (pointsOfAll before + m) = c.subtree? m := by
  induction before with
  | nil =>
    rw [List.nil_append, pointsOfAll, Nat.zero_add, subtreeOfAll?, if_pos inside]
  | cons d before ih =>
    have later : ¬ pointsOfAll (d :: before) + m < d.points := by
      rw [pointsOfAll]
      omega
    have left : pointsOfAll (d :: before) + m - d.points = pointsOfAll before + m := by
      rw [pointsOfAll]
      omega
    rw [List.cons_append, subtreeOfAll?, if_neg later, left, ih]

section Edits

variable (edit : Code → Option (List Code))

/-- The edit of an item. -/
theorem spliceOfAll?_item (before after : List Code) (c : Code) :
    spliceOfAll? edit (before ++ c :: after) (pointsOfAll before) =
      (edit c).map (before ++ · ++ after) := by
  induction before with
  | nil => rw [pointsOfAll, List.nil_append, spliceOfAll?]; rfl
  | cons d before ih =>
    obtain ⟨n, size⟩ := Nat.exists_eq_succ_of_ne_zero (Nat.ne_of_gt d.points_pos)
    have index : pointsOfAll (d :: before) = n + pointsOfAll before + 1 := by
      rw [pointsOfAll]
      omega
    have later : ¬ n + pointsOfAll before + 1 < d.points := by omega
    have left : n + pointsOfAll before + 1 - d.points = pointsOfAll before := by omega
    rw [index, List.cons_append, spliceOfAll?, if_neg later, left, ih, Option.map_map]
    rfl

/-- The edit of a point within an item. -/
theorem spliceOfAll?_within (before after : List Code) {c : Code} {m : Nat}
    (inside : m + 1 < c.points) :
    spliceOfAll? edit (before ++ c :: after) (pointsOfAll before + (m + 1)) =
      (spliceBelow? edit c m).map (before ++ · :: after) := by
  induction before with
  | nil => rw [pointsOfAll, List.nil_append, Nat.zero_add, spliceOfAll?, if_pos inside]; rfl
  | cons d before ih =>
    have index : pointsOfAll (d :: before) + (m + 1) = d.points + pointsOfAll before + m + 1 := by
      rw [pointsOfAll]
      omega
    have later : ¬ d.points + pointsOfAll before + m + 1 < d.points := by omega
    have left : d.points + pointsOfAll before + m + 1 - d.points =
        pointsOfAll before + (m + 1) := by
      omega
    rw [index, List.cons_append, spliceOfAll?, if_neg later, left, ih, Option.map_map]
    rfl

theorem spliceOfAll?_beyond {cs : List Code} {n : Nat} (outside : pointsOfAll cs ≤ n) :
    spliceOfAll? edit cs n = none := by
  induction cs generalizing n with
  | nil => rfl
  | cons c cs ih =>
    have positive := c.points_pos
    rw [pointsOfAll] at outside
    obtain ⟨n, rfl⟩ := Nat.exists_eq_succ_of_ne_zero (n := n) (by omega)
    have later : ¬ n + 1 < c.points := by omega
    rw [spliceOfAll?, if_neg later, ih (by omega)]
    rfl

theorem splice?_beyond {c : Code} {n : Nat} (outside : c.points ≤ n) : c.splice? edit n = none := by
  cases n with
  | zero => rfl
  | succ n =>
    cases c with
    | atom a => rfl
    | list items =>
      rw [points] at outside
      rw [splice?, spliceBelow?, spliceOfAll?_beyond edit (by omega)]
      rfl

end Edits

namespace Context

variable (context : Context) (c : Code)

theorem points_fill : (context.fill c).points = context.points + c.points := by
  induction context generalizing c with
  | root => exact (Nat.zero_add _).symm
  | item outer before after ih =>
    rw [fill, ih, Context.points, Code.points, pointsOfAll_append, pointsOfAll]
    omega

theorem atoms_fill :
    (context.fill c).atoms = context.leftAtoms ++ c.atoms ++ context.rightAtoms := by
  induction context generalizing c with
  | root => exact (List.append_nil _).symm
  | item outer before after ih =>
    rw [fill, ih, atoms, atomsOfAll_append, atomsOfAll, leftAtoms, rightAtoms]
    simp only [List.append_assoc]

/-- The points that fill the hole are counted on from the index of the hole. -/
theorem subtree?_fill {n : Nat} (inside : n < c.points) :
    (context.fill c).subtree? (context.index + n) = c.subtree? n := by
  induction context generalizing c n with
  | root => rw [fill, index, Nat.zero_add]
  | item outer before after ih =>
    have size : (Code.list (before ++ c :: after)).points =
        1 + (pointsOfAll before + (c.points + pointsOfAll after)) := by
      rw [Code.points, pointsOfAll_append, pointsOfAll]
    have place : outer.index + (1 + pointsOfAll before) + n =
        outer.index + (pointsOfAll before + n + 1) := by omega
    rw [fill, index, place, ih _ (by omega), subtree?, subtreeOfAll?_item before after inside]

theorem subtree?_index : (context.fill c).subtree? context.index = some c := by
  rw [← Nat.add_zero context.index, context.subtree?_fill c c.points_pos]
  cases c <;> rfl

/-- An edit of what fills the hole leaves the code around it alone. -/
theorem spliceBelow?_fill (edit : Code → Option (List Code)) {n : Nat} (inside : n + 1 < c.points) :
    spliceBelow? edit (context.fill c) (context.index + n) =
      (spliceBelow? edit c n).map context.fill := by
  induction context generalizing c n with
  | root => rw [index, Nat.zero_add]; exact Option.map_id'.symm
  | item outer before after ih =>
    have size : (Code.list (before ++ c :: after)).points =
        1 + (pointsOfAll before + (c.points + pointsOfAll after)) := by
      rw [Code.points, pointsOfAll_append, pointsOfAll]
    have place : outer.index + (1 + pointsOfAll before) + n =
        outer.index + (pointsOfAll before + (n + 1)) := by omega
    rw [fill, index, place, ih _ (by omega), spliceBelow?,
      spliceOfAll?_within edit before after inside, Option.map_map, Option.map_map]
    rfl

/-- The edit of an item puts trees in its place. -/
theorem splice?_item (edit : Code → Option (List Code)) (before after : List Code) :
    ((context.item before after).fill c).splice? edit (context.item before after).index =
      (edit c).map fun cs => context.fill (.list (before ++ cs ++ after)) := by
  have inside : pointsOfAll before + 1 < (Code.list (before ++ c :: after)).points := by
    have := c.points_pos
    rw [Code.points, pointsOfAll_append, pointsOfAll]
    omega
  have place : (context.item before after).index = context.index + pointsOfAll before + 1 := by
    rw [index]
    omega
  rw [place, splice?, fill, context.spliceBelow?_fill _ edit inside, spliceBelow?,
    spliceOfAll?_item, Option.map_map, Option.map_map]
  rfl

theorem replace?_fill (d : Code) : (context.fill c).replace? context.index d =
    some (context.fill d) := by
  cases context with
  | root => rfl
  | item outer before after =>
    have below : (outer.item before after).index ≠ 0 := by
      rw [index]
      omega
    rw [replace?, if_neg below, splice?_item, Option.map_some, fill, List.append_assoc]
    rfl

end Context

/-- The code around a point with a given index. -/
theorem exists_context (outer : Context) {c : Code} {n : Nat} (inside : n < c.points) :
    ∃ context : Context, ∃ d, outer.fill c = context.fill d ∧
      context.index = outer.index + n := by
  match c, n with
  | c, 0 => exact ⟨outer, c, rfl, rfl⟩
  | .atom a, n + 1 => exact absurd inside (by simp [points])
  | .list items, n + 1 =>
    have among : n < pointsOfAll items := by
      rw [points] at inside
      omega
    obtain ⟨before, c, after, m, rfl, rfl, within⟩ := exists_item among
    obtain ⟨context, d, filled, place⟩ := exists_context (outer.item before after) within
    refine ⟨context, d, filled, ?_⟩
    rw [place, Context.index]
    omega
termination_by c.points
decreasing_by
  have part : c.points ≤ pointsOfAll items := points_le_pointsOfAll (by simp [*])
  simp only [points]
  omega

theorem eq_fill {c : Code} {n : Nat} (inside : n < c.points) :
    ∃ context : Context, ∃ d, c = context.fill d ∧ context.index = n := by
  obtain ⟨context, d, filled, place⟩ := exists_context .root inside
  exact ⟨context, d, filled, place.trans (Nat.zero_add n)⟩

/-- An edit succeeds at the points below the root that it does not refuse, and puts its trees in
their place. -/
theorem splice?_eq_some_iff {edit : Code → Option (List Code)} {c d : Code} {n : Nat} :
    c.splice? edit n = some d ↔ ∃ context before x after cs,
      c = (Context.item context before after).fill x ∧
        (Context.item context before after).index = n ∧ edit x = some cs ∧
          d = context.fill (.list (before ++ cs ++ after)) := by
  constructor
  · intro spliced
    by_cases inside : n < c.points
    · obtain ⟨context, x, rfl, rfl⟩ := eq_fill inside
      cases context with
      | root => contradiction
      | item context before after =>
        rw [context.splice?_item] at spliced
        obtain ⟨cs, edited, rfl⟩ := Option.map_eq_some_iff.mp spliced
        exact ⟨context, before, x, after, cs, rfl, rfl, edited, rfl⟩
    · rw [splice?_beyond edit (Nat.le_of_not_lt inside)] at spliced
      contradiction
  · rintro ⟨context, before, x, after, cs, rfl, rfl, edited, rfl⟩
    rw [context.splice?_item, edited]
    rfl

/-- A list within code is within a list, if it is not all of the code. -/
theorem Context.ofCode_fill_list (context : Context) (items : List Code) :
    (Program.ofCode (context.fill (.list items))).toCode = context.fill (.list items) := by
  induction context generalizing items with
  | root => rfl
  | item outer before after ih => exact ih _

end Code

namespace Program

variable {p q : Program} {index : Nat}

theorem atoms_ofCode (c : Code) : (ofCode c).toCode.atoms = c.atoms := Code.atomsOfAll_toItems c

/-- The point `x` of one program has an index, and the other program has the trees `cs` in its place
and is the same in all other respects. -/
def Exchanged (p q : Program) (index : Nat) (x : Code) (cs : List Code) : Prop :=
  ∃ context before after,
    p.toCode = (Code.Context.item context before after).fill x ∧
    (Code.Context.item context before after).index = index ∧
    q.toCode = context.fill (.list (before ++ cs ++ after))

/-- The root is a list before and after an edit, so nothing needs to be wrapped up again. -/
theorem exchanged_of_splice {edit : Code → Option (List Code)}
    (spliced : (p.toCode.splice? edit index).map ofCode = some q) :
    ∃ x cs, edit x = some cs ∧ p.Exchanged q index x cs := by
  obtain ⟨c, found, rfl⟩ := Option.map_eq_some_iff.mp spliced
  obtain ⟨context, before, x, after, cs, filled, place, edited, rfl⟩ :=
    Code.splice?_eq_some_iff.mp found
  exact ⟨x, cs, edited, context, before, after, filled, place, context.ofCode_fill_list _⟩

theorem Exchanged.points {x : Code} {cs : List Code} (exchanged : p.Exchanged q index x cs) :
    q.points + x.points = p.points + Code.pointsOfAll cs := by
  obtain ⟨context, before, after, filled, -, result⟩ := exchanged
  rw [Program.points, Program.points, filled, result, Code.Context.fill, context.points_fill,
    context.points_fill]
  simp only [Code.points, Code.pointsOfAll_append, Code.pointsOfAll]
  omega

theorem Exchanged.atoms_sublist {x : Code} {cs : List Code} (exchanged : p.Exchanged q index x cs)
    (kept : (Code.atomsOfAll cs).Sublist x.atoms) : q.toCode.atoms.Sublist p.toCode.atoms := by
  obtain ⟨context, before, after, filled, -, result⟩ := exchanged
  rw [filled, result, Code.Context.fill, context.atoms_fill, context.atoms_fill]
  simp only [Code.atoms, Code.atomsOfAll_append, Code.atomsOfAll, List.append_assoc]
  refine (List.Sublist.refl _).append ((List.Sublist.refl _).append ?_)
  exact kept.append (List.Sublist.refl _)

theorem exchanged_of_remove? (removed : p.remove? index = some q) :
    ∃ x, p.Exchanged q index x [] := by
  obtain ⟨x, cs, edited, exchanged⟩ := exchanged_of_splice removed
  obtain rfl := Option.some.inj edited
  exact ⟨x, exchanged⟩

theorem exchanged_of_flatten? (flattened : p.flatten? index = some q) :
    ∃ items, p.Exchanged q index (.list items) items := by
  obtain ⟨x, cs, edited, exchanged⟩ := exchanged_of_splice flattened
  cases x with
  | atom a => contradiction
  | list items =>
    obtain rfl := Option.some.inj edited
    exact ⟨items, exchanged⟩

theorem points_remove_lt (removed : p.remove? index = some q) : q.points < p.points := by
  obtain ⟨x, exchanged⟩ := exchanged_of_remove? removed
  have sizes := exchanged.points
  have positive := x.points_pos
  rw [Code.pointsOfAll] at sizes
  omega

theorem points_flatten (flattened : p.flatten? index = some q) : q.points + 1 = p.points := by
  obtain ⟨items, exchanged⟩ := exchanged_of_flatten? flattened
  have sizes := exchanged.points
  rw [Code.points] at sizes
  omega

theorem atoms_remove_sublist (removed : p.remove? index = some q) :
    q.toCode.atoms.Sublist p.toCode.atoms := by
  obtain ⟨x, exchanged⟩ := exchanged_of_remove? removed
  exact exchanged.atoms_sublist (List.nil_sublist _)

theorem atoms_flatten_sublist (flattened : p.flatten? index = some q) :
    q.toCode.atoms.Sublist p.toCode.atoms := by
  obtain ⟨items, exchanged⟩ := exchanged_of_flatten? flattened
  exact exchanged.atoms_sublist (List.Sublist.refl _)

end Program
end SwarmEvolution
