import SwarmEvolution.Breeding.Simplification
import SwarmEvolution.Proofs.Code.Contexts
import SwarmEvolution.Proofs.Sampling.Outcomes

/-! What an attempt to simplify a program proposes. Whatever deleting a point and dissolving a list
keep, the attempt keeps: its proposal is no larger than the program, and its atoms are some of the
program's, in their order. -/
namespace SwarmEvolution.Breeding

open Sampling Draw

/-- A relation between programs and what simplification makes of them. -/
structure Simplifies (R : Program → Program → Prop) : Prop where
  refl (p : Program) : R p p
  trans {p q r : Program} : R r q → R q p → R r p
  removed {p q : Program} {index : Nat} : p.remove? index = some q → R q p
  flattened {p q : Program} {index : Nat} : p.flatten? index = some q → R q p

theorem simplifies_points : Simplifies fun q p => q.points ≤ p.points where
  refl _ := Nat.le_refl _
  trans := Nat.le_trans
  removed found := Nat.le_of_lt (Program.points_remove_lt found)
  flattened found := Nat.le.intro (Program.points_flatten found)

theorem simplifies_atoms : Simplifies fun q p => q.toCode.atoms.Sublist p.toCode.atoms where
  refl _ := List.Sublist.refl _
  trans := List.Sublist.trans
  removed := Program.atoms_remove_sublist
  flattened := Program.atoms_flatten_sublist

namespace Simplifies

theorem and {R S : Program → Program → Prop} (first : Simplifies R) (second : Simplifies S) :
    Simplifies fun q p => R q p ∧ S q p where
  refl p := ⟨first.refl p, second.refl p⟩
  trans later sooner := ⟨first.trans later.1 sooner.1, second.trans later.2 sooner.2⟩
  removed found := ⟨first.removed found, second.removed found⟩
  flattened found := ⟨first.flattened found, second.flattened found⟩

variable {R : Program → Program → Prop} (simplifies : Simplifies R)

include simplifies

theorem removePoints (count : Nat) (p : Program) : (removePoints count p).Always (R · p) := by
  induction count generalizing p with
  | zero => exact always_pure (simplifies.refl p)
  | succ count ih =>
    unfold Breeding.removePoints
    split
    · exact always_pure (simplifies.refl p)
    · refine always_bind fun drawn => (ih _).mono fun q fewer => ?_
      cases removed : p.remove? (1 + drawn) with
      | none => simpa [removed] using fewer
      | some r =>
        simp only [removed, Option.getD_some] at fewer
        exact simplifies.trans fewer (simplifies.removed removed)

theorem simplifyStep (p : Program) :
    (simplifyStep? p).Always fun p? => ∀ q, p? = some q → R q p := by
  have removed : (removeSome p).Always (R · p) :=
    always_bind fun _ => simplifies.removePoints _ p
  unfold simplifyStep?
  split
  · exact always_pure (by simp)
  · refine always_bind fun percent => ?_
    dsimp only
    generalize (if percent < flattenPercent then listPoints p else []) = lists
    split
    · refine removed.bind fun r fewer => always_pure fun q same => ?_
      obtain rfl := Option.some.inj same
      exact fewer
    · refine always_bind fun i => always_pure fun q same => ?_
      obtain rfl := Option.some.inj same
      generalize List.getD _ i 0 = index
      cases flattened : p.flatten? index with
      | none => exact simplifies.refl p
      | some r => exact simplifies.flattened flattened

end Simplifies

theorem simplifyStep_le (p : Program) :
    (simplifyStep? p).Always fun p? => ∀ q, p? = some q → q.points ≤ p.points :=
  simplifies_points.simplifyStep p

end SwarmEvolution.Breeding
