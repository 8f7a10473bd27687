import SwarmEvolution.Proofs.Evolution.Freshness
import SwarmEvolution.Proofs.Evolution.PopulationSize

/-! The stages of a run of evolution: every population that is bred, and the same one evaluated. No
result is stale in any of them, while they are evaluated, or in what the run comes to. -/
namespace SwarmEvolution

open Sampling Draw Breeding

/-- A population as it was bred and after its evaluation. -/
structure Stage where
  bred : List Individual
  evaluated : List Individual

/-- A population in the middle of its evaluation, in whatever order its individuals are taken. -/
def Stage.Passing (stage : Stage) (population : List Individual) : Prop :=
  ∀ (k : Nat) (i : Individual), population[k]? = some i →
    stage.bred[k]? = some i ∨ stage.evaluated[k]? = some i

/-- What holds of all individuals before and after an evaluation holds of them in the middle. -/
theorem Stage.Passing.forall_mem {stage : Stage} {population : List Individual}
    {P : Individual → Prop} (passing : stage.Passing population) (bred : ∀ i ∈ stage.bred, P i)
    (evaluated : ∀ i ∈ stage.evaluated, P i) : ∀ i ∈ population, P i := by
  intro i member
  obtain ⟨k, here⟩ := List.mem_iff_getElem?.mp member
  rcases passing k i here with before | after
  · exact bred i (List.mem_of_getElem? before)
  · exact evaluated i (List.mem_of_getElem? after)

namespace Breeder

variable {b : Breeder} {population : List Individual}

/-- The stages of the generations from one number on, at most `remaining` of them. -/
def stagesFrom (b : Breeder) : (remaining number : Nat) → List Individual → Stream → List Stage
  | 0, _, _, _ => []
  | remaining + 1, number, bred, random =>
    let course := b.generation number bred random
    if course.1.reachedTarget || remaining = 0 then [⟨bred, course.1.population⟩]
    else
      let next := b.breed course.1.population course.2
      ⟨bred, course.1.population⟩ :: b.stagesFrom remaining (number + 1) next.1 next.2

/-- The stages of a run. Without any generation there is one all the same. -/
def stages (b : Breeder) (random : Stream) : List Stage :=
  let first := b.firstGeneration random
  if b.settings.generations = 0 then [⟨first.1, (b.evaluateAll true first.1 first.2).1⟩]
  else b.stagesFrom b.settings.generations 0 first.1 first.2

/-- Without a fitness to aim at, all generations take place. -/
theorem length_stagesFrom (aimless : b.settings.targetFitness = none) (remaining number : Nat)
    (population : List Individual) (random : Stream) :
    (b.stagesFrom remaining number population random).length = remaining := by
  induction remaining generalizing number population random with
  | zero => rfl
  | succ remaining ih =>
    have missed : (b.generation number population random).1.reachedTarget = false := by
      change b.reaches _ = false
      rw [reaches, aimless]
    rw [stagesFrom]
    dsimp only
    rw [missed, Bool.false_or]
    split
    case isTrue last =>
      rw [of_decide_eq_true last]
      rfl
    case isFalse => exact congrArg (· + 1) (ih ..)

theorem length_stages (aimless : b.settings.targetFitness = none)
    (some : b.settings.generations ≠ 0) (random : Stream) :
    (b.stages random).length = b.settings.generations := by
  rw [stages, if_neg some]
  exact length_stagesFrom aimless ..

theorem generation_history (number : Nat) (population : List Individual) (random : Stream) :
    (b.generation number population random).1.history =
      [GenerationStats.ofPopulation number
        (b.generation number population random).1.population] := rfl

/-- Generations record every stage in their history and come to the population of the last one. -/
theorem generations_stages (remaining number : Nat) (population : List Individual)
    (random : Stream) :
    (b.generations (remaining + 1) number population random).1.history =
        ((b.stagesFrom (remaining + 1) number population random).zipIdx number).map
          (fun (stage, number) => GenerationStats.ofPopulation number stage.evaluated) ∧
      (b.stagesFrom (remaining + 1) number population random).getLast?.map Stage.evaluated =
        some (b.generations (remaining + 1) number population random).1.population := by
  -- A run that is cut short by its target and one that uses up its generations end alike, so only
  -- a generation that is bred from needs the induction.
  induction remaining generalizing number population random with
  | zero =>
    rw [generations, stagesFrom, bind_apply]
    simp [generation, bind_apply, pure_apply]
  | succ remaining ih =>
    rw [generations, stagesFrom, bind_apply]
    dsimp only
    split
    · simp [generation, bind_apply, pure_apply]
    · rw [bind_apply, bind_apply, pure_apply]
      obtain ⟨history, last⟩ := ih (number + 1)
        (b.breed (b.generation number population random).1.population
          (b.generation number population random).2).1
        (b.breed (b.generation number population random).1.population
          (b.generation number population random).2).2
      obtain ⟨stage, final, evaluated⟩ := Option.map_eq_some_iff.mp last
      constructor
      · simp [Course.followedBy, history, generation_history]
      · simp [Course.followedBy, List.getLast?_cons, final, evaluated]

/-- A run comes to the population of its last stage. -/
theorem course_stages (random : Stream) :
    (b.stages random).getLast?.map Stage.evaluated = some (b.course random).1.population := by
  rw [stages, course, bind_apply, bind_apply]
  generalize b.firstGeneration random = first
  cases count : b.settings.generations with
  | zero => rfl
  | succ remaining =>
    obtain ⟨history, last⟩ := generations_stages (b := b) remaining 0 first.1 first.2
    obtain ⟨stage, final, -⟩ := Option.map_eq_some_iff.mp last
    have told : (b.generations (remaining + 1) 0 first.1 first.2).1.history.isEmpty = false := by
      rw [history]
      cases shape : b.stagesFrom (remaining + 1) 0 first.1 first.2 with
      | nil => simp [shape] at final
      | cons => rfl
    rw [if_neg (Nat.succ_ne_zero _), last, told]
    rfl

theorem exists_last_stage (b : Breeder) (random : Stream) :
    ∃ stage ∈ b.stages random, stage.evaluated = (b.run random).1.population := by
  obtain ⟨stage, last, evaluated⟩ := Option.map_eq_some_iff.mp (course_stages (b := b) random)
  exact ⟨stage, List.mem_of_getLast? last, evaluated⟩

section Invariants

variable {Q R : List Individual → Prop}

theorem stagesFrom_invariant
    (tested : ∀ all population, Q population → (b.evaluateAll all population).Always R)
    (bred : ∀ population, R population → (b.breed population).Always Q)
    (remaining number : Nat) (random : Stream) (start : Q population) :
    ∀ stage ∈ b.stagesFrom remaining number population random,
      Q stage.bred ∧ R stage.evaluated := by
  induction remaining generalizing number population random with
  | zero => simp [stagesFrom]
  | succ remaining ih =>
    have evaluated := tested (b.settings.reproduction = .standard) population start random
    intro stage member
    unfold stagesFrom at member
    dsimp only at member
    split at member
    · obtain rfl := List.mem_singleton.mp member
      exact ⟨start, evaluated⟩
    · rcases List.mem_cons.mp member with rfl | later
      · exact ⟨start, evaluated⟩
      · exact ih _ _ (bred _ evaluated _) stage later

/-- What holds of the first population, and after that is handed on from evaluation to breeding and
back, holds at every stage. -/
theorem stages_invariant (first : b.firstGeneration.Always Q)
    (tested : ∀ all population, Q population → (b.evaluateAll all population).Always R)
    (bred : ∀ population, R population → (b.breed population).Always Q) (random : Stream) :
    ∀ stage ∈ b.stages random, Q stage.bred ∧ R stage.evaluated := by
  have start := first random
  unfold stages
  dsimp only
  split
  · simpa using ⟨start, tested true _ start _⟩
  · exact stagesFrom_invariant tested bred _ _ _ start

variable {P : Individual → Prop}

theorem Hereditary.evaluateAll (hereditary : b.Hereditary P) (all : Bool)
    (holds : ∀ i ∈ population, P i) :
    (b.evaluateAll all population).Always fun evaluated => ∀ i ∈ evaluated, P i := by
  refine always_bind fun seeds => always_pure fun i member => ?_
  obtain ⟨k, below, rfl⟩ := List.mem_iff_getElem.mp member
  rw [List.getElem_zipWith]
  have old := holds _ (List.getElem_mem (l := population) (n := k) (by simp at below; omega))
  split
  · exact hereditary.evaluated _ old
  · exact old

theorem Hereditary.stages (hereditary : b.Hereditary P) (random : Stream) :
    ∀ stage ∈ b.stages random, (∀ i ∈ stage.bred, P i) ∧ ∀ i ∈ stage.evaluated, P i := by
  have tested (all : Bool) (population : List Individual) (holds : Throughout P population) :
      (b.evaluateAll all population).Always (Throughout P) := fun random => by
    refine ⟨hereditary.evaluateAll all holds.1 random, fun none => holds.2 ?_⟩
    have length := (evaluateAll_length (b := b) all population random).1
    rw [none] at length
    exact List.eq_nil_of_length_eq_zero length.symm
  have bred (population : List Individual) (holds : Throughout P population) :
      (b.breed population).Always (Throughout P) := fun random => by
    refine ⟨hereditary.breed holds random, fun none => holds.2 ?_⟩
    by_contra some
    have length := breed_length (b := b) (List.length_pos_of_ne_nil some) random
    rw [none] at length
    exact some (List.eq_nil_of_length_eq_zero length.symm)
  intro stage member
  have whole := stages_invariant hereditary.firstGeneration tested bred random stage member
  exact ⟨whole.1.1, whole.2.1⟩

/-- At every stage of a run the population has its size, and at the end of the stage all of it is
evaluated. -/
theorem length_of_mem_stages (nonempty : 0 < b.settings.populationSize) (random : Stream) :
    ∀ stage ∈ b.stages random, stage.bred.length = b.settings.populationSize ∧
      stage.evaluated.length = b.settings.populationSize ∧
        ∀ i ∈ stage.evaluated, i.isEvaluated := by
  refine stages_invariant (R := fun evaluated => evaluated.length = b.settings.populationSize ∧
    ∀ i ∈ evaluated, i.isEvaluated) firstGeneration_length ?_ ?_ random
  · intro all population length
    exact (evaluateAll_length all population).mono fun evaluated whole =>
      ⟨whole.1.trans length, whole.2⟩
  · intro population whole
    exact (breed_length (whole.1 ▸ nonempty)).mono fun next length => length.trans whole.1

end Invariants

theorem stages_fresh (random : Stream) :
    ∀ stage ∈ b.stages random, b.Fresh stage.bred ∧ b.Fresh stage.evaluated :=
  b.current_hereditary.stages random

theorem assembleEnsemble_unknown (population : List Individual) (size : Nat) :
    (assembleEnsemble population size).Unknown := ⟨rfl, rfl, rfl⟩

theorem buildEnsemble_current (population : List Individual) :
    (b.buildEnsemble population).Always fun pool? =>
      ∀ pool, pool? = some pool → pool.Current b.evaluator := by
  unfold buildEnsemble
  split
  · exact always_pure (by simp)
  · have pooled := assembleEnsemble_unknown population b.optimisation.ensembleSize
    generalize assembleEnsemble population b.optimisation.ensembleSize = ensemble at pooled ⊢
    have tested : (b.evaluate ensemble).Always fun evaluation =>
        (ensemble.apply evaluation).Known b.evaluator :=
      always_bind fun seed => always_pure (Individual.apply_known (.inl pooled) seed)
    refine tested.bind fun evaluation known => always_pure fun pool same => ?_
    obtain rfl := Option.some.inj same
    exact .inr known

/-- At no point of a run is there an individual in the population with stale results, and neither
are those of the best individual and of the pool. -/
theorem run_never_stale (b : Breeder) (random : Stream) :
    (∀ stage ∈ b.stages random, ∀ population, stage.Passing population → b.Fresh population) ∧
      b.Fresh (b.run random).1.population ∧
      (b.run random).1.best.Current b.evaluator ∧
      ∀ pool, (b.run random).1.ensemble = some pool → pool.Current b.evaluator := by
  have all := stages_fresh (b := b) random
  have final : b.Fresh (b.course random).1.population := by
    obtain ⟨stage, last, evaluated⟩ := Option.map_eq_some_iff.mp (course_stages (b := b) random)
    exact evaluated ▸ (all stage (List.mem_of_getLast? last)).2
  refine ⟨fun stage member population passing i among => ?_, final, pick_current final _,
    buildEnsemble_current _ _⟩
  obtain ⟨k, here⟩ := List.mem_iff_getElem?.mp among
  rcases passing k i here with bred | evaluated
  · exact (all stage member).1 i (List.mem_of_getElem? bred)
  · exact (all stage member).2 i (List.mem_of_getElem? evaluated)

/-- Two programs that move at random, or do not, for three generations. -/
def pair : Breeder where
  settings := { populationSize := 2, generations := 3, maxRandomCodeSize := 3 }
  optimisation := Evaluator.duo.optimisation
  vocabulary := ⟨{}, [.booleanConstant, .instruction (.vector .random)], by simp⟩
  evaluator := .duo

/-- The third generation has been bred twice, and its results are those of its own programs. -/
theorem pair_never_stale : ∃ stage, (pair.stages (.ofSeed 0))[2]? = some stage ∧
    stage.evaluated.length = 2 ∧
      ∀ i ∈ stage.evaluated, i.isEvaluated ∧ i.Current pair.evaluator := by
  have three : (pair.stages (.ofSeed 0)).length = 3 := length_stages rfl (by decide) _
  have third := List.getElem?_eq_getElem (l := pair.stages (.ofSeed 0)) (i := 2) (by omega)
  have member := List.mem_of_getElem? third
  obtain ⟨-, length, evaluated⟩ := length_of_mem_stages (b := pair) Nat.two_pos (.ofSeed 0) _ member
  refine ⟨_, third, length, fun i among => ⟨evaluated i among, ?_⟩⟩
  exact (run_never_stale pair (.ofSeed 0)).1 _ member _ (fun _ _ here => .inr here) i among

end Breeder
end SwarmEvolution
