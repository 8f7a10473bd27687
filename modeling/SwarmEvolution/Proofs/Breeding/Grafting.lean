import Mathlib.Algebra.Order.Group.Multiset
import Mathlib.Tactic.Abel
import SwarmEvolution.Breeding.Operators
import SwarmEvolution.Proofs.Code.Contexts
import SwarmEvolution.Proofs.Sampling.Bounds

/-! Breeding changes one point of a program or nothing. The child of a parent has code in the place
of one point, within the budget and with no results, or it is a copy of the parent; crossover in
both directions exchanges two points, so that no atom is lost or doubled. -/
namespace SwarmEvolution

open Sampling Draw

namespace Program

variable {p : Program} {context : Code.Context} {old : Code}

theorem replace_fill (filled : p.toCode = context.fill old) (c : Code) :
    p.replace context.index c = ofCode (context.fill c) := by
  rw [replace, filled, context.replace?_fill]

theorem subtree?_of_fill (filled : p.toCode = context.fill old) :
    p.subtree? context.index = some old := by
  rw [subtree?, filled, context.subtree?_index]

end Program

/-- The child of a parent in whose program code takes the place of a point. Nothing is known of it
but the swarm size; where the program would be over the budget it is a copy of the parent. -/
inductive Individual.Grafted (parent : Individual) (context : Code.Context) (graft : Code)
    (maxPoints : Nat) : Individual → Prop where
  | accepted (within : (Program.ofCode (context.fill graft)).points ≤ maxPoints) :
      Grafted parent context graft maxPoints
        { genotype := .single (.ofCode (context.fill graft)), fitness := none, errors := [],
          swarmSize := parent.swarmSize, trajectory := none }
  | refused (beyond : maxPoints < (Program.ofCode (context.fill graft)).points) :
      Grafted parent context graft maxPoints parent

theorem Individual.Grafted.atoms {parent child : Individual} {context : Code.Context} {graft : Code}
    {maxPoints : Nat} (grafted : parent.Grafted context graft maxPoints child)
    (within : (Program.ofCode (context.fill graft)).points ≤ maxPoints) :
    child.program.toCode.atoms = (context.fill graft).atoms := by
  cases grafted with
  | accepted => exact Program.atoms_ofCode _
  | refused beyond => exact absurd within (Nat.not_le_of_lt beyond)

/-- Points that change places take their atoms along. -/
theorem Code.Context.atoms_exchange (c d : Code.Context) (x y : Code) :
    ((c.fill y).atoms ++ (d.fill x).atoms).Perm ((c.fill x).atoms ++ (d.fill y).atoms) := by
  rw [← Multiset.coe_eq_coe]
  simp only [atoms_fill, ← Multiset.coe_add]
  abel

namespace Breeding

variable {parent : Individual} {context : Code.Context} {old : Code}

/-- A point is always found. -/
theorem node_always (p : Program) :
    (node p).Always fun place => ∃ context : Code.Context, ∃ c,
      p.toCode = context.fill c ∧ context.index = place := by
  have nonempty : 0 < p.points := p.toCode.points_pos
  refine (below_lt (Nat.lt_of_lt_of_le nonempty (Nat.le_max_left ..))).mono fun place inside => ?_
  exact Code.eq_fill (n := place) (by rw [Nat.max_eq_left nonempty] at inside; exact inside)

theorem offspring_grafted (filled : parent.program.toCode = context.fill old) (graft : Code)
    (maxPoints : Nat) :
    parent.Grafted context graft maxPoints
      (offspring parent
        (if (parent.program.replace context.index graft).points ≤ maxPoints
          then some (parent.program.replace context.index graft) else none)) := by
  rw [Program.replace_fill filled]
  split
  case isTrue within => exact .accepted within
  case isFalse beyond => exact .refused (Nat.lt_of_not_le beyond)

theorem splice_grafted {donor : Program} {source : Code.Context} {graft : Code}
    (filled : parent.program.toCode = context.fill old) (given : donor.toCode = source.fill graft)
    (maxPoints : Nat) :
    parent.Grafted context graft maxPoints
      (offspring parent (splice? parent.program context.index donor source.index maxPoints)) := by
  have found : splice? parent.program context.index donor source.index maxPoints =
      if (parent.program.replace context.index graft).points ≤ maxPoints
        then some (parent.program.replace context.index graft) else none := by
    rw [splice?, Program.subtree?_of_fill given]
    rfl
  rw [found]
  exact offspring_grafted filled graft maxPoints

variable (a b : Individual) (maxPoints : Nat)

theorem crossover_grafted :
    (crossover a b maxPoints).Always fun child => ∃ c old d graft,
      a.program.toCode = Code.Context.fill c old ∧ b.program.toCode = Code.Context.fill d graft ∧
        a.Grafted c graft maxPoints child := by
  refine (node_always a.program).bind fun place receiving => ?_
  refine (node_always b.program).bind fun source giving => always_pure ?_
  obtain ⟨c, old, filled, rfl⟩ := receiving
  obtain ⟨d, graft, given, rfl⟩ := giving
  exact ⟨c, old, d, graft, filled, given, splice_grafted filled given maxPoints⟩

theorem crossoverPair_grafted :
    (crossoverPair a b maxPoints).Always fun children => ∃ c old d graft,
      a.program.toCode = Code.Context.fill c old ∧ b.program.toCode = Code.Context.fill d graft ∧
        a.Grafted c graft maxPoints children.1 ∧ b.Grafted d old maxPoints children.2 := by
  refine (node_always a.program).bind fun place receiving => ?_
  refine (node_always b.program).bind fun source giving => always_pure ?_
  obtain ⟨c, old, filled, rfl⟩ := receiving
  obtain ⟨d, graft, given, rfl⟩ := giving
  exact ⟨c, old, d, graft, filled, given, splice_grafted filled given maxPoints,
    splice_grafted given filled maxPoints⟩

theorem mutate_grafted (v : Vocabulary) (s : Settings.Evolution) :
    (mutate v s a).Always fun child => ∃ c old size random,
      a.program.toCode = Code.Context.fill c old ∧
        a.Grafted c (v.randomCode size random).1 s.maxPoints child := by
  refine (node_always a.program).bind fun place receiving => ?_
  refine always_bind fun size => ?_
  have drawn : (v.randomCode size).Always fun code =>
      ∃ random, code = (v.randomCode size random).1 := fun random => ⟨random, rfl⟩
  refine drawn.bind fun code outcome => always_pure ?_
  obtain ⟨c, old, filled, rfl⟩ := receiving
  obtain ⟨random, rfl⟩ := outcome
  exact ⟨c, old, size, random, filled, offspring_grafted filled _ s.maxPoints⟩

/-- Crossover replaces one point of a program by one of another's, mutation replaces one by random
code, and crossover in both directions exchanges two points. A child over the budget is a copy of
its parent; two children within it hold the atoms of both parents. Ensembles breed by their first
program. -/
theorem breeding_changes_one_point (v : Vocabulary) (s : Settings.Evolution) :
    ((crossover a b maxPoints).Always fun child => ∃ c old d graft,
      a.program.toCode = Code.Context.fill c old ∧ b.program.toCode = Code.Context.fill d graft ∧
        a.Grafted c graft maxPoints child) ∧
    ((mutate v s a).Always fun child => ∃ c old size random,
      a.program.toCode = Code.Context.fill c old ∧
        a.Grafted c (v.randomCode size random).1 s.maxPoints child) ∧
    (crossoverPair a b maxPoints).Always fun children => ∃ c old d graft,
      a.program.toCode = Code.Context.fill c old ∧ b.program.toCode = Code.Context.fill d graft ∧
        a.Grafted c graft maxPoints children.1 ∧ b.Grafted d old maxPoints children.2 ∧
          ((Program.ofCode (c.fill graft)).points ≤ maxPoints →
            (Program.ofCode (d.fill old)).points ≤ maxPoints →
              (children.1.program.toCode.atoms ++ children.2.program.toCode.atoms).Perm
                (a.program.toCode.atoms ++ b.program.toCode.atoms)) := by
  refine ⟨crossover_grafted a b maxPoints, mutate_grafted a v s, ?_⟩
  refine (crossoverPair_grafted a b maxPoints).mono fun children exchanged => ?_
  obtain ⟨c, old, d, graft, filled, given, first, second⟩ := exchanged
  refine ⟨c, old, d, graft, filled, given, first, second, fun within within' => ?_⟩
  rw [first.atoms within, second.atoms within', filled, given]
  exact c.atoms_exchange d old graft

end Breeding
end SwarmEvolution
