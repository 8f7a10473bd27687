import SwarmEvolution.Evolution.Breeder
import SwarmEvolution.Proofs.Breeding.Groups
import SwarmEvolution.Proofs.Breeding.Simplifying
import SwarmEvolution.Proofs.Evolution.Fittest
import SwarmEvolution.Proofs.Evolution.PopulationSize

/-! What is handed down: a property that the ways to make and to change an individual keep is one
of all individuals of the next generation if it is one of all individuals of the last. -/
namespace SwarmEvolution

open Sampling Draw Breeding

namespace Breeding

variable {P : Individual → Prop}

theorem splice_points {receiver donor child : Program} {place source maxPoints : Nat}
    (spliced : splice? receiver place donor source maxPoints = some child) :
    child.points ≤ maxPoints := by
  obtain ⟨c, -, fits⟩ := Option.bind_eq_some_iff.mp spliced
  dsimp only at fits
  split at fits
  case isTrue small =>
    obtain rfl := Option.some.inj fits
    exact small
  case isFalse => contradiction

/-- A place goes to its parent or to a child. -/
theorem fillPlaces_always {places : List (Individual × Nat)}
    {children : List (Option Individual)} (parents : ∀ place ∈ places, P place.1)
    (bred : ∀ child, some child ∈ children → P child) :
    (fillPlaces places children).Always fun survivors => ∀ i ∈ survivors, P i := by
  induction places generalizing children with
  | nil => exact always_pure (by simp)
  | cons place places ih =>
    obtain ⟨parent, j⟩ := place
    obtain ⟨own, others⟩ := List.forall_mem_cons.mp parents
    unfold fillPlaces
    split
    case _ child found =>
      have able := bred child (List.mem_of_getElem? found)
      refine always_bind fun wins => ?_
      have later := @ih (children.set j none) others fun child member =>
        bred child ((List.mem_or_eq_of_mem_set member).resolve_right (by simp))
      refine later.bind fun survivors all => always_pure (List.forall_mem_cons.mpr ⟨?_, all⟩)
      split
      · exact able
      · exact own
    case _ =>
      exact (ih others bred).bind fun survivors all =>
        always_pure (List.forall_mem_cons.mpr ⟨own, all⟩)

theorem selectSurvivors_always {parents children : List Individual}
    (old : ∀ i ∈ parents, P i) (new : ∀ i ∈ children, P i) :
    (selectSurvivors parents children).Always fun survivors => ∀ i ∈ survivors, P i :=
  fillPlaces_always (fun _ member => old _ (List.of_mem_zip member).1) (by simpa using new)

variable {population : List Individual}

theorem pick_mem {index : Nat} (inside : index < population.length) :
    pick population index ∈ population := by
  simp [pick, inside]

theorem pick_holds (blank : P (.ofProgram default)) (holds : ∀ i ∈ population, P i)
    (index : Nat) : P (pick population index) := by
  by_cases inside : index < population.length
  · exact holds _ (pick_mem inside)
  · simpa [pick, inside] using blank

/-- Whoever wins a tournament takes part in it. -/
theorem tournament_lt (some : population ≠ []) (size : Nat) :
    (tournament population size).Always (· < population.length) := by
  have candidate : (below population.length).Always (· < population.length) :=
    below_lt (List.length_pos_of_ne_nil some)
  refine candidate.bind fun first among => ?_
  refine (always_times _ candidate).bind fun others all => always_pure ?_
  generalize population.length = n at among all
  induction others generalizing first with
  | nil => exact among
  | cons other others ih =>
    obtain ⟨next, later⟩ := List.forall_mem_cons.mp all
    rw [List.foldl_cons]
    split
    · exact ih _ next later
    · exact ih _ among later

end Breeding

namespace Breeder

variable {b : Breeder} {P : Individual → Prop} {population : List Individual}

/-- A property of all individuals of a population, and of what stands in for one if there are
none. -/
def Throughout (P : Individual → Prop) (population : List Individual) : Prop :=
  (∀ i ∈ population, P i) ∧ (population = [] → P (.ofProgram default))

theorem Throughout.winner (holds : Throughout P population) (size : Nat) :
    (tournament population size >>= fun index =>
      return Breeding.pick population index : Draw Individual).Always P := by
  by_cases none : population = []
  · exact always_bind fun index => always_pure (pick_holds (holds.2 none) holds.1 index)
  · exact (tournament_lt none size).bind fun index inside =>
      always_pure (holds.1 _ (pick_mem inside))

theorem Throughout.fittest (holds : Throughout P population) :
    P (Breeding.pick population (bestIndex population)) := by
  by_cases none : population = []
  · exact pick_holds (holds.2 none) holds.1 _
  · exact holds.1 _ (pick_bestIndex none).mem

/-- A property that every way to make or to change an individual keeps. Another program is only
taken over if it is within the limit or no larger than the old one, another swarm size only if it is
below the largest one. -/
structure Hereditary (b : Breeder) (P : Individual → Prop) : Prop where
  /-- What stands in for an individual that is not there, which only happens if there are none. -/
  blank : b.settings.populationSize = 0 → P (.ofProgram default)
  newborn : b.newborn.Always P
  setProgram : ∀ {i : Individual} {p : Program}, P i →
    p.points ≤ b.settings.maxPoints ∨ p.points ≤ i.program.points → P (i.setProgram p)
  resized : ∀ {i : Individual} {size : Nat}, 0 < size → size < b.optimisation.maxSwarmSize → P i →
    P (i.withSwarmSize size).invalidate
  evaluated : ∀ {i : Individual} (seed : UInt64), P i → P (i.apply (b.evaluator.evaluate i seed))

namespace Hereditary

variable (hereditary : b.Hereditary P)
include hereditary

theorem firstGeneration : b.firstGeneration.Always (Throughout P) := by
  intro random
  refine ⟨always_times _ hereditary.newborn random, fun none => hereditary.blank ?_⟩
  have length := times_length b.settings.populationSize b.newborn random
  exact length.symm.trans (List.length_eq_zero_iff.mpr none)

theorem offspring {parent : Individual} {p? : Option Program} (holds : P parent)
    (small : ∀ p, p? = some p → p.points ≤ b.settings.maxPoints) :
    P (Breeding.offspring parent p?) := by
  cases p? with
  | none => exact holds
  | some p => exact hereditary.setProgram holds (.inl (small p rfl))

theorem crossover {first : Individual} (holds : P first) (second : Individual) :
    (Breeding.crossover first second b.settings.maxPoints).Always P :=
  always_bind fun _ => always_bind fun _ => always_pure
    (hereditary.offspring holds fun _ => splice_points)

theorem crossoverPair {first second : Individual} (one : P first) (other : P second) :
    (Breeding.crossoverPair first second b.settings.maxPoints).Always fun pair =>
      P pair.1 ∧ P pair.2 :=
  always_bind fun _ => always_bind fun _ => always_pure
    ⟨hereditary.offspring one fun _ => splice_points,
      hereditary.offspring other fun _ => splice_points⟩

theorem mutate {parent : Individual} (holds : P parent) :
    (Breeding.mutate b.vocabulary b.settings parent).Always P := by
  refine always_bind fun _ => always_bind fun _ => always_bind fun _ => always_pure ?_
  refine hereditary.offspring holds fun p fits => ?_
  split at fits
  case isTrue small =>
    obtain rfl := Option.some.inj fits
    exact small
  case isFalse => contradiction

theorem mutateSwarmSize {i : Individual} (holds : P i) (rate : Float) :
    (Breeding.mutateSwarmSize i b.optimisation.maxSwarmSize rate).Always P := by
  unfold Breeding.mutateSwarmSize
  split
  case isTrue choice =>
    simp only [Bool.and_eq_true, decide_eq_true_eq] at choice
    have largest := choice.2
    refine always_bind fun mutates => ?_
    split
    · refine (below_lt (by omega)).bind fun size inside => always_pure ?_
      exact hereditary.resized (by omega) (by omega) holds
    · exact always_pure holds
  case isFalse => exact always_pure holds

theorem mutant {parent : Individual} (holds : P parent) : (b.mutant parent).Always P := by
  refine (hereditary.mutate holds).bind fun child mutated => ?_
  split
  · exact hereditary.mutateSwarmSize mutated _
  · exact always_pure mutated

/-- Of an attempt and what it started from, one is kept. -/
theorem simplifyWith (seed : UInt64) (attempts : Nat) {i : Individual} (holds : P i) :
    (Breeding.simplifyWith (b.evaluator.evaluate · seed) attempts i).Always P := by
  induction attempts generalizing i with
  | zero => exact always_pure holds
  | succ attempts ih =>
    refine (simplifyStep_le i.program).bind fun p? smaller => ?_
    cases p? with
    | none => exact always_pure holds
    | some p =>
      have replaced : P (i.setProgram p) := hereditary.setProgram holds (.inr (smaller p rfl))
      refine ih ?_
      split
      · exact hereditary.evaluated seed replaced
      · exact holds

theorem simplify (attempts : Nat) {i : Individual} (holds : P i) :
    (Breeding.simplify b.evaluator.evaluate attempts i).Always P := by
  unfold Breeding.simplify
  split
  · exact always_pure holds
  · exact always_bind fun seed =>
      hereditary.simplifyWith seed attempts (hereditary.evaluated seed holds)

theorem perhapsSimplify {i : Individual} (holds : P i) : (b.perhapsSimplify i).Always P := by
  refine always_bind fun _ => ?_
  split
  · exact hereditary.simplify _ holds
  · exact always_pure holds

theorem tournamentChild (holds : Throughout P population) :
    (b.tournamentChild population).Always P := by
  have winner := holds.winner b.settings.tournamentSize
  refine always_bind fun _ => ?_
  split
  · exact winner.bind fun _ won => hereditary.mutant won
  · exact winner.bind fun _ won => always_bind fun _ => hereditary.crossover won _

theorem breedStandard (holds : Throughout P population) :
    (b.breedStandard population).Always fun next => ∀ i ∈ next, P i := by
  have elite := hereditary.perhapsSimplify holds.fittest
  have child := (hereditary.tournamentChild holds).bind fun _ bred =>
    hereditary.perhapsSimplify bred
  refine elite.bind fun i first => ?_
  refine (always_times _ child).bind fun children others => ?_
  exact always_pure (List.forall_mem_cons.mpr ⟨first, others⟩)

theorem children {parents : List Individual} (holds : ∀ i ∈ parents, P i) :
    (b.children parents).Always fun bred => ∀ i ∈ bred, P i := by
  fun_induction b.children parents with
  | case1 first second rest ih =>
    obtain ⟨one, others⟩ := List.forall_mem_cons.mp holds
    obtain ⟨other, remaining⟩ := List.forall_mem_cons.mp others
    have later := ih remaining
    refine always_bind fun _ => ?_
    split
    · exact (hereditary.crossoverPair one other).bind fun pair both => later.bind fun _ bred =>
        always_pure (List.forall_mem_cons.mpr ⟨both.1, List.forall_mem_cons.mpr ⟨both.2, bred⟩⟩)
    · have pair : (each b.mutant [first, second]).Always fun mutants => ∀ i ∈ mutants, P i :=
        always_each fun i member =>
          hereditary.mutant (holds i (List.mem_append_left rest member))
      exact pair.bind fun _ mutants => later.bind fun _ bred =>
        always_pure (List.forall_mem_append.mpr ⟨mutants, bred⟩)
  | case2 single =>
    exact (hereditary.mutant (holds single (.head _))).bind fun child one =>
      always_pure (by simpa using one)
  | case3 => exact always_pure (by simp)

theorem crowd {parents : List Individual} (holds : ∀ i ∈ parents, P i) :
    (b.crowd parents).Always fun survivors => ∀ i ∈ survivors, P i := by
  refine (hereditary.children holds).bind fun children bred => ?_
  have tested : (each b.tested children).Always fun tested => ∀ i ∈ tested, P i :=
    always_each fun i member => always_bind fun seed =>
      always_pure (hereditary.evaluated seed (bred i member))
  refine tested.bind fun tested evaluated => ?_
  refine (selectSurvivors_always holds evaluated).bind fun survivors remaining => ?_
  exact always_each fun i member => hereditary.perhapsSimplify (remaining i member)

theorem breedCrowding (holds : ∀ i ∈ population, P i) :
    (b.breedCrowding population).Always fun next => ∀ i ∈ next, P i := by
  refine (parentGroups_perm _ _).bind fun groups split => ?_
  refine (seeded_parents _).bind fun jobs parents => always_pure fun i member => ?_
  obtain ⟨⟨group, seed⟩, among, survived⟩ := List.mem_flatMap.mp member
  have chosen : group ∈ jobs.map (·.1) := List.mem_map_of_mem among
  rw [parents, takeGroups_whole split] at chosen
  obtain ⟨indices, drawn, rfl⟩ := List.mem_map.mp chosen
  refine (hereditary.crowd fun parent listed => ?_).withSeed seed i survived
  obtain ⟨index, inside, rfl⟩ := List.mem_map.mp listed
  exact holds _ (pick_mem (List.mem_range.mp
    (split.mem_iff.mp (List.mem_flatten_of_mem drawn inside))))

theorem breed (holds : Throughout P population) :
    (b.breed population).Always fun next => ∀ i ∈ next, P i := by
  unfold Breeder.breed
  split
  · exact hereditary.breedStandard holds
  · exact hereditary.breedCrowding holds.1

end Hereditary
end Breeder
end SwarmEvolution
