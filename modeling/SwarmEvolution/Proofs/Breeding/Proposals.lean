import SwarmEvolution.Proofs.Breeding.Simplifying
import SwarmEvolution.Proofs.Code.Edits
import SwarmEvolution.Proofs.Sampling.Bounds

/-! Every proposal to simplify a program is strictly simpler. An index that is drawn is that of a
point the edit applies to, so either a list is dissolved or one point at least is deleted; a second
index is drawn for what the first deletion left. -/
namespace SwarmEvolution
namespace Program

/-- What is left of the first program after as many deletions is the second one. -/
inductive Deleted : Nat → Program → Program → Prop
  | none (p : Program) : Deleted 0 p p
  | next {count index : Nat} {p q r : Program} (removed : p.remove? index = some q)
      (rest : Deleted count q r) : Deleted (count + 1) p r

namespace Deleted

variable {count : Nat} {p q : Program}

theorem points_le (deleted : Deleted count p q) : q.points + count ≤ p.points := by
  induction deleted with
  | none p => exact Nat.le_refl _
  | next removed _ ih =>
    have fewer := points_remove_lt removed
    omega

theorem atoms_sublist (deleted : Deleted count p q) : q.toCode.atoms.Sublist p.toCode.atoms := by
  induction deleted with
  | none p => exact List.Sublist.refl _
  | next removed _ ih => exact ih.trans (atoms_remove_sublist removed)

end Deleted
end Program

namespace Breeding

open Sampling Draw

variable {p : Program} {random : Stream}

/-- The point with an index is a list within the program. -/
def ListWithin (p : Program) (index : Nat) : Prop :=
  0 < index ∧ ∃ items, p.subtree? index = some (.list items)

theorem mem_listPoints {index : Nat} : index ∈ listPoints p ↔ ListWithin p index := by
  rw [listPoints, List.mem_filter, List.mem_range, Bool.and_eq_true, decide_eq_true_iff]
  constructor
  · rintro ⟨-, below, isList⟩
    refine ⟨below, ?_⟩
    cases found : p.subtree? index with
    | none => simp [found] at isList
    | some c =>
      cases c with
      | atom a => simp [found, Code.isList] at isList
      | list items => exact ⟨items, rfl⟩
  · rintro ⟨below, items, found⟩
    exact ⟨Code.lt_points_of_subtree? found, below, by rw [found]; rfl⟩

theorem isSome_flatten_iff {index : Nat} : (p.flatten? index).isSome ↔ ListWithin p index := by
  rw [Program.isSome_flatten?]
  constructor
  · rintro ⟨below, -, items, found⟩
    exact ⟨below, items, found⟩
  · rintro ⟨below, items, found⟩
    exact ⟨below, Code.lt_points_of_subtree? found, items, found⟩

/-- Deleting only stops before the count is reached when there is nothing left but the root. -/
theorem removePoints_deleted (count : Nat) (p : Program) :
    (removePoints count p).Always fun q =>
      ∃ n ≤ count, (n < count → q.points ≤ 1) ∧ p.Deleted n q := by
  induction count generalizing p with
  | zero =>
    exact always_pure ⟨0, Nat.le_refl 0, fun short => absurd short (Nat.lt_irrefl 0), .none p⟩
  | succ count ih =>
    unfold removePoints
    split
    case isTrue bare => exact always_pure ⟨0, Nat.zero_le _, fun _ => bare, .none p⟩
    case isFalse more =>
      refine (below_lt (by omega)).bind fun drawn inside => ?_
      have applies : (p.remove? (1 + drawn)).isSome :=
        Program.isSome_remove?.mpr ⟨by omega, by omega⟩
      obtain ⟨r, removed⟩ := Option.isSome_iff_exists.mp applies
      dsimp only
      rw [removed, Option.getD_some]
      refine (ih r).mono fun q left => ?_
      obtain ⟨n, within, stopped, deleted⟩ := left
      exact ⟨n + 1, by omega, fun short => stopped (by omega), .next removed deleted⟩

theorem removeSome_deleted (more : 1 < p.points) :
    (removeSome p).Always fun q => ∃ n, 1 ≤ n ∧ n ≤ 2 ∧ p.Deleted n q := by
  have two : (0 : Nat) < 2 := by decide
  have few : (small 2).Always (· < 2) :=
    pick_lt (always_bind fun word => always_pure word.toNat_lt) two patience
  refine few.bind fun second fits => (removePoints_deleted (1 + second) p).mono fun q left => ?_
  obtain ⟨n, within, stopped, deleted⟩ := left
  refine ⟨n, ?_, by omega, deleted⟩
  cases deleted with
  | none =>
    have bare := stopped (by omega)
    omega
  | next removed rest => omega

/-- The number drawn first asks for a list to be dissolved, and there is one within the program. -/
def Dissolves (p : Program) (random : Stream) : Prop :=
  (small 100 random).1 < flattenPercent ∧ ∃ index, ListWithin p index

/-- What an attempt makes of a program. -/
inductive Proposed (p : Program) (random : Stream) : Option Program → Prop
  | nothing (bare : p.points ≤ 1) : Proposed p random none
  | dissolved {index : Nat} {q : Program} (asked : Dissolves p random)
      (flattened : p.flatten? index = some q) : Proposed p random (some q)
  | deleted {n : Nat} {q : Program} (more : 1 < p.points) (unasked : ¬ Dissolves p random)
      (first : 1 ≤ n) (last : n ≤ 2) (deleted : p.Deleted n q) : Proposed p random (some q)

/-- Which lists an attempt may dissolve, after its first draw. -/
theorem lists_isEmpty_iff :
    (if (small 100 random).1 < flattenPercent then listPoints p else []).isEmpty = true ↔
      ¬ Dissolves p random := by
  by_cases low : (small 100 random).1 < flattenPercent
  · rw [if_pos low, List.isEmpty_iff, List.eq_nil_iff_forall_not_mem]
    simp only [mem_listPoints, Dissolves, low, true_and, not_exists]
  · rw [if_neg low]
    simp [Dissolves, low]

theorem simplifyStep_proposed (p : Program) (random : Stream) :
    Proposed p random (simplifyStep? p random).1 := by
  unfold simplifyStep?
  split
  case isTrue bare => exact .nothing bare
  case isFalse more =>
    rw [bind_apply]
    by_cases asked : Dissolves p random
    · rw [if_neg (mt lists_isEmpty_iff.mp (not_not.mpr asked)), if_pos asked.1, bind_apply,
        pure_apply]
      have positive : 0 < (listPoints p).length := by
        obtain ⟨index, within⟩ := asked.2
        exact List.length_pos_of_mem (mem_listPoints.mpr within)
      have inside := below_lt positive (small 100 random).2
      generalize below (listPoints p).length (small 100 random).2 = drawn at inside ⊢
      have listed : (listPoints p).getD drawn.1 0 ∈ listPoints p := by
        rw [List.getD_eq_getElem _ _ inside]
        exact List.getElem_mem inside
      obtain ⟨q, flattened⟩ := Option.isSome_iff_exists.mp
        (isSome_flatten_iff.mpr (mem_listPoints.mp listed))
      rw [flattened]
      exact .dissolved asked flattened
    · rw [if_pos (lists_isEmpty_iff.mpr asked), bind_apply, pure_apply]
      have left := removeSome_deleted (Nat.lt_of_not_le more) (small 100 random).2
      obtain ⟨n, first, last, deleted⟩ := left
      exact .deleted (Nat.lt_of_not_le more) asked first last deleted

/-- An attempt proposes nothing exactly if there is nothing below the root. Otherwise its proposal
has fewer points, at least one, and its atoms are some of the program's, in their order. If it is to
dissolve a list and there is one, the list gives way to its items and all atoms stay; if not, one or
two points are deleted. -/
theorem simplifyStep_strictly_simpler (p : Program) (random : Stream) :
    ((simplifyStep? p random).1 = none ↔ p.points ≤ 1) ∧
    ∀ q, (simplifyStep? p random).1 = some q →
      1 ≤ q.points ∧ q.points < p.points ∧ q.toCode.atoms.Sublist p.toCode.atoms ∧
      (Dissolves p random → ∃ index items, p.Exchanged q index (.list items) items ∧
        q.points + 1 = p.points ∧ q.toCode.atoms = p.toCode.atoms) ∧
      (¬ Dissolves p random → ∃ n, 1 ≤ n ∧ n ≤ 2 ∧ p.Deleted n q) := by
  have proposed := simplifyStep_proposed p random
  generalize (simplifyStep? p random).1 = proposal at proposed ⊢
  cases proposed with
  | nothing bare => exact ⟨iff_of_true rfl bare, fun q same => nomatch same⟩
  | @dissolved index q asked flattened =>
    have fewer := Program.points_flatten flattened
    have positive : 1 ≤ q.points := q.toCode.points_pos
    obtain ⟨items, exchanged⟩ := Program.exchanged_of_flatten? flattened
    have kept : q.toCode.atoms = p.toCode.atoms := by
      obtain ⟨before, after⟩ := exchanged.atoms
      rw [before, after, Code.atoms]
    refine ⟨iff_of_false nofun (by omega), fun r same => ?_⟩
    obtain rfl := Option.some.inj same
    exact ⟨positive, by omega, kept ▸ List.Sublist.refl _,
      fun _ => ⟨index, items, exchanged, fewer, kept⟩, fun unasked => absurd asked unasked⟩
  | @deleted n q more unasked first last deleted =>
    have fewer := deleted.points_le
    refine ⟨iff_of_false nofun (by omega), fun r same => ?_⟩
    obtain rfl := Option.some.inj same
    exact ⟨q.toCode.points_pos, by omega, deleted.atoms_sublist,
      fun asked => absurd asked unasked, fun _ => ⟨n, first, last, deleted⟩⟩

/-- The program `(1 (2 ()) 3)` with a stream whose first number asks for a list to be dissolved, and
with one whose first number does not. -/
theorem sandwich_strictly_simpler :
    ((simplifyStep? Program.sandwich (ofWords 0 0)).1 = none ↔ Program.sandwich.points ≤ 1) ∧
    (∃ q, (simplifyStep? Program.sandwich (ofWords 0 0)).1 = some q ∧
      1 ≤ q.points ∧ q.points < 6 ∧ q.toCode.atoms.Sublist Program.sandwich.toCode.atoms ∧
      ∃ index items, Program.sandwich.Exchanged q index (.list items) items ∧
        q.points + 1 = 6 ∧ q.toCode.atoms = Program.sandwich.toCode.atoms) ∧
    ∃ q, (simplifyStep? Program.sandwich (ofWords 0x80000000 0)).1 = some q ∧
      1 ≤ q.points ∧ q.points < 6 ∧ q.toCode.atoms.Sublist Program.sandwich.toCode.atoms ∧
      ∃ n, 1 ≤ n ∧ n ≤ 2 ∧ Program.sandwich.Deleted n q := by
  have six : Program.sandwich.points = 6 := by decide
  have asked : Dissolves Program.sandwich (ofWords 0 0) :=
    ⟨by decide, 2, by decide, [.atom (.integer 2), .list []], rfl⟩
  have unasked : ¬ Dissolves Program.sandwich (ofWords 0x80000000 0) := fun asked =>
    absurd asked.1 (by decide)
  obtain ⟨none_iff, one⟩ := simplifyStep_strictly_simpler Program.sandwich (ofWords 0 0)
  obtain ⟨none_iff', other⟩ := simplifyStep_strictly_simpler Program.sandwich (ofWords 0x80000000 0)
  obtain ⟨q, proposed⟩ := Option.ne_none_iff_exists'.mp (mt none_iff.mp (by omega))
  obtain ⟨r, proposed'⟩ := Option.ne_none_iff_exists'.mp (mt none_iff'.mp (by omega))
  obtain ⟨positive, fewer, atoms, dissolved, -⟩ := one q proposed
  obtain ⟨positive', fewer', atoms', -, deleted⟩ := other r proposed'
  exact ⟨none_iff, ⟨q, proposed, positive, six ▸ fewer, atoms, six ▸ dissolved asked⟩,
    r, proposed', positive', six ▸ fewer', atoms', deleted unasked⟩

end Breeding
end SwarmEvolution
