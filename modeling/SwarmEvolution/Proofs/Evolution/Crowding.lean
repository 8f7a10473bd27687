import SwarmEvolution.Proofs.Breeding.Survival
import SwarmEvolution.Proofs.Evolution.PopulationSize

/-! Crowding uses every parent once. In each group one child is bred for every parent, and the place
of a parent goes to it or to a child of the group that takes no other place. The groups share out
the population, so the places of all groups together are those of the population. -/
namespace SwarmEvolution

open Sampling Breeding
open Draw hiding pick

/-- Where the individual in a place comes from: it is a parent, or the child bred for a parent. -/
inductive Origin where
  | parent (i : Nat)
  | child (i : Nat)
deriving DecidableEq, Inhabited

namespace Origin

/-- The parent it is, or for which it was bred. -/
def index : Origin → Nat
  | parent i => i
  | child i => i

def individual (population : List Individual) (children : Nat → Individual) : Origin → Individual
  | parent i => pick population i
  | child i => children i

/-- A place of a group is kept by its own parent or goes to a child of the group. -/
def Within (group : List Nat) (i : Nat) (o : Origin) : Prop :=
  o = .parent i ∨ ∃ j ∈ group, o = .child j

theorem Within.mono {group others : List Nat} {i : Nat} {o : Origin} (within : o.Within group i)
    (more : ∀ j ∈ group, j ∈ others) : o.Within others i :=
  within.imp_right fun ⟨j, member, bred⟩ => ⟨j, more j member, bred⟩

theorem Within.index_mem {group : List Nat} {i : Nat} {o : Origin} (within : o.Within group i)
    (among : i ∈ group) : o.index ∈ group := by
  rcases within with rfl | ⟨j, member, rfl⟩
  · exact among
  · exact member

end Origin

section Origins

variable (population brood survivors : List Individual) (group matching : List Nat)
  (won : Nat → Prop)

/-- Who is left in the place of a parent of a group. -/
inductive Fills (i : Nat) : Origin → Prop
  | kept (left : survivors[group.idxOf i]? = some (pick population i)) : Fills i (.parent i)
  | taken {j : Nat} (member : j ∈ group) (takes : won (group.idxOf i))
      (named : matching[group.idxOf i]? = some (group.idxOf j))
      (left : survivors[group.idxOf i]? = some (pick brood (group.idxOf j))) : Fills i (.child j)

variable {population brood survivors group matching won} {i k : Nat} {o : Origin}

namespace Fills

theorem within (fills : Fills population brood survivors group matching won i o) :
    o.Within group i := by
  cases fills with
  | kept _ => exact .inl rfl
  | taken member _ _ _ => exact .inr ⟨_, member, rfl⟩

theorem once (among : i ∈ group) (fills : Fills population brood survivors group matching won i o)
    (fills' : Fills population brood survivors group matching won k o)
    (single : ∀ p q, won p → won q → matching[p]? = matching[q]? → p = q) : i = k := by
  cases fills with
  | kept _ =>
    cases fills' with
    | kept _ => rfl
  | taken _ takes named _ =>
    cases fills' with
    | taken _ takes' named' _ =>
      exact (List.idxOf_inj among).mp (single _ _ takes takes' (named.trans named'.symm))

theorem left (fills : Fills population brood survivors group matching won i o) :
    survivors[group.idxOf i]? =
      some (o.individual population fun j => pick brood (group.idxOf j)) := by
  cases fills with
  | kept left => exact left
  | taken _ _ _ left => exact left

end Fills

variable (apart : group.Nodup) (even : brood.length = group.length)
  (filled : Filled (group.map (pick population)) brood matching won survivors)

include apart even filled

end Origins

namespace Breeder

variable (b : Breeder)

section Broods

def MutantOf (parent child : Individual) : Prop := ∃ random, child = (b.mutant parent random).1

def CrossOf (first second : Individual) (pair : Individual × Individual) : Prop :=
  ∃ random, pair = (crossoverPair first second b.settings.maxPoints random).1

/-- The children that some parents may have: from one pair after another two mutants or two crosses,
and a mutant of a parent that is left over. -/
inductive Bred : List Individual → List Individual → Prop
  | nobody : Bred [] []
  | single {parent child : Individual} (mutated : b.MutantOf parent child) : Bred [parent] [child]
  | mutants {first second x y : Individual} {parents children : List Individual}
      (one : b.MutantOf first x) (other : b.MutantOf second y) (rest : Bred parents children) :
      Bred (first :: second :: parents) (x :: y :: children)
  | crosses {first second x y : Individual} {parents children : List Individual}
      (both : b.CrossOf first second (x, y)) (rest : Bred parents children) :
      Bred (first :: second :: parents) (x :: y :: children)

/-- The child with the results of an evaluation. -/
def Judged (child tested : Individual) : Prop :=
  ∃ seed, tested = child.apply (b.evaluator.evaluate child seed)

/-- One evaluated child for every parent. -/
def HasBrood (parents brood : List Individual) : Prop :=
  ∃ children, b.Bred parents children ∧ List.Forall₂ b.Judged children brood

/-- The children of a group, with their results. -/
def brood (parents : List Individual) : Draw (List Individual) := do
  each b.tested (← b.children parents)

variable {b}

theorem Bred.length_eq {parents children : List Individual} (bred : b.Bred parents children) :
    children.length = parents.length := by
  induction bred with
  | nobody => rfl
  | single _ => rfl
  | mutants _ _ _ ih => exact congrArg (· + 2) ih
  | crosses _ _ ih => exact congrArg (· + 2) ih

theorem HasBrood.length_eq {parents brood : List Individual} (has : b.HasBrood parents brood) :
    brood.length = parents.length := by
  obtain ⟨children, bred, judged⟩ := has
  exact judged.length_eq.symm.trans bred.length_eq

end Broods

/-- What is kept of an individual: the individual itself or a simplification of it. -/
def Remains (original kept : Individual) : Prop :=
  kept = original ∨ ∃ random,
    kept = (simplify b.evaluator.evaluate b.settings.simplifications original random).1

/-- How crowding fills the places of some groups, each of which has a seed: with every parent a
child is bred, and every place goes to its parent or to a child of the group, none of them to
two. -/
structure Crowded (population : List Individual) (jobs : List (List Nat × UInt64))
    (children : Nat → Individual) (origin : Nat → Origin) (next : List Individual) : Prop where
  bred : ∀ job ∈ jobs,
    withSeed job.2 (b.brood (job.1.map (pick population))) = job.1.map children
  brood : ∀ job ∈ jobs, b.HasBrood (job.1.map (pick population)) (job.1.map children)
  within : ∀ job ∈ jobs, ∀ i ∈ job.1, (origin i).Within job.1 i
  once : ((jobs.flatMap (·.1)).map origin).Nodup
  left : List.Forall₂ b.Remains
    ((jobs.flatMap (·.1)).map fun i => (origin i).individual population children) next

section Crowds

variable {b} {population next : List Individual} {jobs : List (List Nat × UInt64)}
  {children : Nat → Individual} {origin : Nat → Origin}

theorem Crowded.within_all (crowded : b.Crowded population jobs children origin next) :
    ∀ i ∈ jobs.flatMap (·.1), (origin i).Within (jobs.flatMap (·.1)) i := by
  intro i member
  obtain ⟨job, chosen, among⟩ := List.mem_flatMap.mp member
  exact (crowded.within job chosen i among).mono fun j shared =>
    List.mem_flatMap.mpr ⟨job, chosen, shared⟩

/-- Only what the functions are at the indices of the groups counts. -/
theorem Crowded.congr {children' : Nat → Individual} {origin' : Nat → Origin}
    (crowded : b.Crowded population jobs children origin next)
    (bred : ∀ i ∈ jobs.flatMap (·.1), children' i = children i)
    (places : ∀ i ∈ jobs.flatMap (·.1), origin' i = origin i) :
    b.Crowded population jobs children' origin' next := by
  have inside : ∀ job ∈ jobs, ∀ i ∈ job.1, i ∈ jobs.flatMap (·.1) := fun job chosen i among =>
    List.mem_flatMap.mpr ⟨job, chosen, among⟩
  have broods : ∀ job ∈ jobs, job.1.map children' = job.1.map children := fun job chosen =>
    List.map_congr_left fun i among => bred i (inside job chosen i among)
  refine ⟨fun job chosen => ?_, fun job chosen => ?_, fun job chosen i among => ?_, ?_, ?_⟩
  · rw [broods job chosen]
    exact crowded.bred job chosen
  · rw [broods job chosen]
    exact crowded.brood job chosen
  · rw [places i (inside job chosen i among)]
    exact crowded.within job chosen i among
  · rw [List.map_congr_left places]
    exact crowded.once
  · have same : ∀ i ∈ jobs.flatMap (·.1), (origin' i).individual population children' =
        (origin i).individual population children := by
      intro i among
      rw [places i among]
      rcases crowded.within_all i among with parent | ⟨j, member, child⟩
      · rw [parent, Origin.individual, Origin.individual]
      · rw [child, Origin.individual, Origin.individual, bred j member]
    rw [List.map_congr_left same]
    exact crowded.left

/-- Groups that share no index go on beside each other. -/
theorem Crowded.append {others : List (List Nat × UInt64)} {later : List Individual}
    (first : b.Crowded population jobs children origin next)
    (second : b.Crowded population others children origin later)
    (apart : (jobs.flatMap (·.1)).Disjoint (others.flatMap (·.1))) :
    b.Crowded population (jobs ++ others) children origin (next ++ later) := by
  refine ⟨List.forall_mem_append.mpr ⟨first.bred, second.bred⟩,
    List.forall_mem_append.mpr ⟨first.brood, second.brood⟩,
    List.forall_mem_append.mpr ⟨first.within, second.within⟩, ?_, ?_⟩
  · rw [List.flatMap_append, List.map_append]
    refine first.once.append second.once fun o here there => ?_
    obtain ⟨i, among, rfl⟩ := List.mem_map.mp here
    obtain ⟨k, other, same⟩ := List.mem_map.mp there
    exact apart ((first.within_all i among).index_mem among)
      (same ▸ (second.within_all k other).index_mem other)
  · rw [List.flatMap_append, List.map_append]
    exact List.rel_append first.left second.left

end Crowds

end Breeder
end SwarmEvolution
