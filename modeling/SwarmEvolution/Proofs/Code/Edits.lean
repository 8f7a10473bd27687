import SwarmEvolution.Proofs.Code.Preorder

/-! What deleting a point and dissolving a list do to a program. Both apply to points below the
root, dissolving only to lists; they change the list that the point is an item of and nothing else,
so the atoms of the point disappear from among the others or all atoms stay in their order. -/
namespace SwarmEvolution
namespace Code

/-- The atom that a point is, unless it is a list. -/
def atom? : Code → Option Atom
  | .atom a => some a
  | .list _ => none

/-- The atoms among some points. -/
def atomsAmong (points : List Code) : List Atom := points.filterMap atom?

mutual

theorem atoms_eq (c : Code) : c.atoms = atomsAmong c.preorder := by
  cases c with
  | atom a => rfl
  | list items => rw [atoms, atomsOfAll_eq items]; rfl

theorem atomsOfAll_eq (cs : List Code) : atomsOfAll cs = atomsAmong (preorderOfAll cs) := by
  cases cs with
  | nil => rfl
  | cons c rest =>
    rw [atomsOfAll, atoms_eq c, atomsOfAll_eq rest, preorderOfAll, atomsAmong, atomsAmong,
      atomsAmong, List.filterMap_append]

end

namespace Context

variable (context : Context) (c : Code)

/-- The atoms to the left of a hole are those among the points before it. -/
theorem leftAtoms_eq :
    context.leftAtoms = atomsAmong ((context.fill c).preorder.take context.index) := by
  rw [context.preorder_fill, List.append_assoc, List.take_left' (context.length_leading c)]
  induction context generalizing c with
  | root => rfl
  | item outer before after ih =>
    rw [leftAtoms, leading, atomsAmong, List.filterMap_append, ih, atomsOfAll_eq]
    rfl

theorem rightAtoms_eq :
    context.rightAtoms =
      atomsAmong ((context.fill c).preorder.drop (context.index + c.points)) := by
  have points : (context.leading c ++ c.preorder).length = context.index + c.points := by
    rw [List.length_append, context.length_leading, c.length_preorder]
  rw [context.preorder_fill, List.drop_left' points]
  -- What follows the hole is the same for all that fills it, so the induction forgets `c`.
  clear points
  induction context with
  | root => rfl
  | item outer before after ih =>
    rw [rightAtoms, trailing, atomsAmong, List.filterMap_append, ih, atomsOfAll_eq]
    rfl

end Context

/-- An edit applies to the points below the root that it does not refuse. -/
theorem isSome_splice? {edit : Code → Option (List Code)} {c : Code} {n : Nat} :
    (c.splice? edit n).isSome ↔ 0 < n ∧ ∃ x, c.subtree? n = some x ∧ (edit x).isSome := by
  constructor
  · intro applies
    obtain ⟨d, spliced⟩ := Option.isSome_iff_exists.mp applies
    obtain ⟨context, before, x, after, cs, rfl, rfl, edited, -⟩ := splice?_eq_some_iff.mp spliced
    refine ⟨?_, x, Context.subtree?_index _ x, edited ▸ rfl⟩
    rw [Context.index]
    omega
  · rintro ⟨below, x, found, applies⟩
    obtain ⟨context, rfl, rfl⟩ := eq_fill_of_subtree? found
    cases context with
    | root => exact absurd below (Nat.lt_irrefl 0)
    | item context before after => rw [context.splice?_item, Option.isSome_map, applies]

end Code

namespace Program

variable {p q : Program} {index : Nat} {x : Code} {cs : List Code}

namespace Exchanged

theorem subtree? (exchanged : p.Exchanged q index x cs) : p.subtree? index = some x := by
  obtain ⟨context, before, after, filled, rfl, -⟩ := exchanged
  rw [Program.subtree?, filled, Code.Context.subtree?_index]

theorem atoms (exchanged : p.Exchanged q index x cs) :
    p.toCode.atoms = Code.atomsAmong (p.toCode.preorder.take index) ++ x.atoms ++
        Code.atomsAmong (p.toCode.preorder.drop (index + x.points)) ∧
      q.toCode.atoms = Code.atomsAmong (p.toCode.preorder.take index) ++ Code.atomsOfAll cs ++
        Code.atomsAmong (p.toCode.preorder.drop (index + x.points)) := by
  obtain ⟨context, before, after, filled, rfl, result⟩ := exchanged
  rw [filled, ← Code.Context.leftAtoms_eq, ← Code.Context.rightAtoms_eq, Code.Context.atoms_fill,
    result, context.atoms_fill]
  simp only [Code.Context.leftAtoms, Code.Context.rightAtoms, Code.atoms, Code.atomsOfAll_append,
    List.append_assoc, and_self]

end Exchanged

theorem isSome_remove? : (p.remove? index).isSome ↔ 0 < index ∧ index < p.points := by
  rw [remove?, Option.isSome_map, Code.remove?, Code.isSome_splice?]
  constructor
  · rintro ⟨below, x, found, -⟩
    exact ⟨below, Code.lt_points_of_subtree? found⟩
  · rintro ⟨below, inside⟩
    obtain ⟨context, x, filled, rfl⟩ := Code.eq_fill inside
    exact ⟨below, x, filled ▸ context.subtree?_index x, rfl⟩

theorem isSome_flatten? : (p.flatten? index).isSome ↔
    0 < index ∧ index < p.points ∧ ∃ items, p.subtree? index = some (.list items) := by
  rw [flatten?, Option.isSome_map, Code.flatten?, Code.isSome_splice?]
  constructor
  · rintro ⟨below, x, found, applies⟩
    cases x with
    | atom a => contradiction
    | list items => exact ⟨below, Code.lt_points_of_subtree? found, items, found⟩
  · rintro ⟨below, -, items, found⟩
    exact ⟨below, .list items, found, rfl⟩

/-- Deleting applies to the points below the root, and takes the block of the point's atoms out of
the program's. Dissolving applies to the lists among them; their items take their place, so that all
atoms stay in their order and one point is gone. Where an edit does not apply the program stays. -/
theorem edits_hit_one_point (p : Program) (index : Nat) :
    ((p.remove? index).isSome ↔ 0 < index ∧ index < p.points) ∧
    (∀ q, p.remove? index = some q → ∃ x left right,
      p.subtree? index = some x ∧ p.Exchanged q index x [] ∧ q.points + x.points = p.points ∧
      left = Code.atomsAmong (p.toCode.preorder.take index) ∧
      p.toCode.atoms = left ++ x.atoms ++ right ∧ q.toCode.atoms = left ++ right) ∧
    ((p.flatten? index).isSome ↔
      0 < index ∧ index < p.points ∧ ∃ items, p.subtree? index = some (.list items)) ∧
    (∀ q, p.flatten? index = some q → ∃ items,
      p.subtree? index = some (.list items) ∧ p.Exchanged q index (.list items) items ∧
      q.points + 1 = p.points ∧ q.toCode.atoms = p.toCode.atoms) ∧
    (¬ (0 < index ∧ index < p.points) → (p.remove? index).getD p = p) ∧
    (¬ (0 < index ∧ index < p.points ∧ ∃ items, p.subtree? index = some (.list items)) →
      (p.flatten? index).getD p = p) := by
  refine ⟨isSome_remove?, fun q removed => ?_, isSome_flatten?, fun q flattened => ?_,
    fun outside => ?_, fun refused => ?_⟩
  · obtain ⟨x, exchanged⟩ := exchanged_of_remove? removed
    obtain ⟨before, after⟩ := exchanged.atoms
    rw [Code.atomsOfAll, List.append_nil] at after
    exact ⟨x, _, _, exchanged.subtree?, exchanged, exchanged.points, rfl, before, after⟩
  · obtain ⟨items, exchanged⟩ := exchanged_of_flatten? flattened
    obtain ⟨before, after⟩ := exchanged.atoms
    refine ⟨items, exchanged.subtree?, exchanged, points_flatten flattened, ?_⟩
    rw [before, after, Code.atoms]
  · rw [Option.not_isSome_iff_eq_none.mp ((not_congr isSome_remove?).mpr outside), Option.getD_none]
  · rw [Option.not_isSome_iff_eq_none.mp ((not_congr isSome_flatten?).mpr refused),
      Option.getD_none]

/-- The program `(1 (2 ()) 3)`. -/
def sandwich : Program :=
  ⟨[.atom (.integer 1), .list [.atom (.integer 2), .list []], .atom (.integer 3)]⟩

/-- The list within it at 2 goes with its two items, or they take its place; the root stays. -/
theorem sandwich_edits :
    (∃ q, sandwich.remove? 2 = some q ∧ ∃ x left right,
      sandwich.subtree? 2 = some x ∧ sandwich.Exchanged q 2 x [] ∧
      q.points + x.points = sandwich.points ∧
      left = Code.atomsAmong (sandwich.toCode.preorder.take 2) ∧
      sandwich.toCode.atoms = left ++ x.atoms ++ right ∧ q.toCode.atoms = left ++ right) ∧
    (∃ q, sandwich.flatten? 2 = some q ∧ ∃ items,
      sandwich.subtree? 2 = some (.list items) ∧ sandwich.Exchanged q 2 (.list items) items ∧
      q.points + 1 = sandwich.points ∧ q.toCode.atoms = sandwich.toCode.atoms) ∧
    (sandwich.remove? 0).getD sandwich = sandwich ∧
    (sandwich.flatten? 1).getD sandwich = sandwich := by
  obtain ⟨-, removed, -, flattened, -⟩ := edits_hit_one_point sandwich 2
  obtain ⟨-, -, -, -, outside, -⟩ := edits_hit_one_point sandwich 0
  obtain ⟨-, -, -, -, -, refused⟩ := edits_hit_one_point sandwich 1
  refine ⟨⟨_, rfl, removed _ rfl⟩, ⟨_, rfl, flattened _ rfl⟩, outside (by decide), refused ?_⟩
  rintro ⟨-, -, items, found⟩
  cases found

end Program
end SwarmEvolution
