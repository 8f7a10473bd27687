import SwarmEvolution.Proofs.Evolution.Fittest
import SwarmEvolution.Proofs.Evolution.Preparation
import SwarmEvolution.Proofs.Evolution.Stages

/-! The accounts of a run agree: its history, what it tells on the way, whether it has reached its
target and the best individual all belong to the generations that there were, and the run ends with
the first one that reaches the target or with the last one. -/
namespace SwarmEvolution

open Sampling Draw Breeding

namespace Breeder

variable {b : Breeder} {population : List Individual} {remaining number : Nat}

/-- What is told of a generation. -/
def told (b : Breeder) (stats : GenerationStats) : List Progress :=
  .started stats.generation :: b.evaluationProgress b.settings.populationSize ++ [.completed stats]

theorem reaches_iff {fitness : Float32} :
    b.reaches fitness = true ↔ ∃ target, b.settings.targetFitness = some target ∧
      fitness ≤ target := by
  unfold reaches
  cases b.settings.targetFitness with
  | none => simp
  | some target => simp

/-- A course of at most `remaining` generations from one number on has ended in time, and its parts
belong together. -/
structure Course.Accounted (b : Breeder) (remaining number : Nat) (c : Course) : Prop where
  numbered : c.history.map (·.generation) = List.range' number c.history.length
  bounded : c.history.length ≤ remaining
  final : ∃ last, c.history.getLast? = some last ∧
    last = GenerationStats.ofPopulation last.generation c.population ∧
      c.reachedTarget = b.reaches last.bestFitness
  complete : c.reachedTarget = true ∨ c.history.length = remaining
  before : ∀ stats ∈ c.history.dropLast, b.reaches stats.bestFitness = false
  told : c.progress = c.history.flatMap b.told

theorem generation_spec (length : population.length = b.settings.populationSize) :
    (b.generation number population).Always fun c =>
      c.population.length = b.settings.populationSize ∧
        c = { population := c.population
              history := [GenerationStats.ofPopulation number c.population]
              reachedTarget :=
                b.reaches (GenerationStats.ofPopulation number c.population).bestFitness
              progress := b.told (GenerationStats.ofPopulation number c.population) } := by
  refine (evaluateAll_length _ _).bind fun evaluated whole => always_pure ?_
  have same : evaluated.length = b.settings.populationSize := whole.1.trans length
  refine ⟨same, ?_⟩
  simp only [told, same]
  rfl

/-- A generation that ends its course: it reaches the target or no other one is to come. -/
theorem accounted_single {population : List Individual}
    (ends : b.reaches (GenerationStats.ofPopulation number population).bestFitness = true ∨
      remaining = 0) :
    Course.Accounted b (remaining + 1) number
      { population
        history := [GenerationStats.ofPopulation number population]
        reachedTarget := b.reaches (GenerationStats.ofPopulation number population).bestFitness
        progress := b.told (GenerationStats.ofPopulation number population) } where
  numbered := rfl
  bounded := Nat.succ_le_succ (Nat.zero_le _)
  final := ⟨_, rfl, rfl, rfl⟩
  complete := ends.imp id fun none => by simp [none]
  before := by simp
  told := by simp

theorem Course.Accounted.followedBy {population : List Individual} {later : Course}
    {stats : GenerationStats} (short : b.reaches stats.bestFitness = false)
    (first : stats.generation = number) (rest : later.Accounted b remaining (number + 1)) :
    (Course.followedBy ⟨population, [stats], false, b.told stats⟩ later).Accounted b
      (remaining + 1) number := by
  obtain ⟨last, ended, whole, reached⟩ := rest.final
  have some : later.history ≠ [] := by
    rintro none
    rw [none] at ended
    contradiction
  constructor
  · simp [Course.followedBy, rest.numbered, first, List.range'_succ]
  · simpa [Course.followedBy, Nat.add_comm] using rest.bounded
  · refine ⟨last, ?_, whole, reached⟩
    simp [Course.followedBy, List.getLast?_cons, ended]
  · refine rest.complete.imp id fun all => ?_
    simp [Course.followedBy, all]
  · change ∀ s ∈ (stats :: later.history).dropLast, _
    rw [List.dropLast_cons_of_ne_nil some]
    exact List.forall_mem_cons.mpr ⟨short, rest.before⟩
  · simp [Course.followedBy, rest.told]

/-- The generations up to the end of a run, by induction on how many may still come. -/
theorem generations_accounted (positive : 0 < b.settings.populationSize)
    (length : population.length = b.settings.populationSize) :
    (b.generations (remaining + 1) number population).Always
      (Course.Accounted b (remaining + 1) number) := by
  induction remaining generalizing number population with
  | zero =>
    refine (generation_spec length).bind fun c spec => ?_
    rw [if_pos (by simp), spec.2]
    exact always_pure (accounted_single (.inr rfl))
  | succ remaining ih =>
    refine (generation_spec length).bind fun c spec => ?_
    obtain ⟨same, spec⟩ := spec
    generalize c.population = population at same spec
    subst spec
    dsimp only
    split
    case isTrue ends =>
      exact always_pure (accounted_single (.inl (by simpa using ends)))
    case isFalse short =>
      replace short : b.reaches (GenerationStats.ofPopulation number population).bestFitness =
        false := by simpa using short
      refine (breed_length (same ▸ positive)).bind fun next bred => ?_
      refine (ih (bred.trans same)).bind fun later rest => always_pure ?_
      rw [short]
      exact rest.followedBy short rfl

end Breeder

/-- The result of a run keeps account of it: the generations are counted from zero, none but the
last one reaches the target, and the best individual and what is told on the way belong to them. -/
structure EvolutionResult.Accounted (b : Breeder) (r : EvolutionResult) : Prop where
  numbered : r.history.map (·.generation) = List.range r.history.length
  bounded : r.history.length ≤ b.settings.generations
  complete : r.history.length = b.settings.generations ∨
    ∃ last, r.history.getLast? = some last ∧ b.reaches last.bestFitness = true
  before : ∀ stats ∈ r.history.dropLast, b.reaches stats.bestFitness = false
  reached : r.reachedTarget = true ↔ ∃ target last, b.settings.targetFitness = some target ∧
    r.history.getLast? = some last ∧ last.bestFitness ≤ target
  size : r.population.length = b.settings.populationSize
  evaluated : ∀ i ∈ r.population, i.isEvaluated
  best : r.best.IsFittestOf r.population
  least : ∀ i ∈ r.population, ¬ i.fitnessOrWorst.value < r.best.fitnessOrWorst.value
  lowest : ∀ last, r.history.getLast? = some last →
    r.best.fitness.map Fitness.value = some last.bestFitness
  told : r.progress =
    if b.settings.generations = 0 then b.evaluationProgress b.settings.populationSize
    else r.history.flatMap b.told

namespace Breeder

variable {b : Breeder}

/-- Without generations nothing is recorded, but the first population is evaluated and told of. -/
theorem course_of_none (none : b.settings.generations = 0) :
    b.course.Always fun c => c.history = [] ∧ c.reachedTarget = false ∧
      c.progress = b.evaluationProgress b.settings.populationSize := by
  unfold course
  rw [none]
  refine firstGeneration_length.bind fun first length => ?_
  refine (always_pure rfl : (b.generations 0 0 first).Always (· = ⟨first, [], false, []⟩)).bind ?_
  rintro _ rfl
  refine always_bind fun evaluated => always_pure ⟨rfl, rfl, ?_⟩
  rw [List.nil_append, length]

theorem course_of_some (positive : 0 < b.settings.populationSize) {remaining : Nat}
    (some : b.settings.generations = remaining + 1) :
    b.course.Always (Course.Accounted b (remaining + 1) 0) := by
  unfold course
  rw [some]
  refine firstGeneration_length.bind fun first length => ?_
  refine (generations_accounted positive length).bind fun c accounted => ?_
  obtain ⟨last, ended, -, -⟩ := accounted.final
  have recorded : c.history.isEmpty = false := by
    cases shape : c.history with
    | nil => simp [shape] at ended
    | cons => rfl
  rw [recorded]
  exact always_pure accounted

theorem run_accounted (positive : 0 < b.settings.populationSize) (random : Stream) :
    (b.run random).1.Accounted b := by
  obtain ⟨stage, member, final⟩ := exists_last_stage b random
  obtain ⟨-, size, evaluated⟩ := length_of_mem_stages positive random stage member
  rw [final] at size evaluated
  have some : (b.run random).1.population ≠ [] := by
    rw [← List.length_pos_iff, size]
    exact positive
  have best : (b.run random).1.best.IsFittestOf (b.run random).1.population := pick_bestIndex some
  cases count : b.settings.generations with
  | zero =>
    obtain ⟨recorded, reached, told⟩ := course_of_none count random
    change (b.run random).1.history = [] at recorded
    change (b.run random).1.reachedTarget = false at reached
    change (b.run random).1.progress = _ at told
    constructor
    · simp [recorded]
    · simp [recorded]
    · exact .inl (by simp [recorded, count])
    · simp [recorded]
    · simp [recorded, reached]
    · exact size
    · exact evaluated
    · exact best
    · exact best.not_lt
    · simp [recorded]
    · rw [if_pos count, told]
  | succ remaining =>
    have accounted := course_of_some positive count random
    obtain ⟨last, ended, whole, reached⟩ := accounted.final
    change (b.run random).1.history.getLast? = _ at ended
    change (b.run random).1.reachedTarget = _ at reached
    constructor
    · rw [List.range_eq_range']
      exact accounted.numbered
    · exact count ▸ accounted.bounded
    · rcases accounted.complete with early | all
      · exact .inr ⟨last, ended, reached ▸ early⟩
      · exact .inl (count ▸ all)
    · exact accounted.before
    · rw [reached, reaches_iff]
      simp [ended]
    · exact size
    · exact evaluated
    · exact best
    · exact best.not_lt
    · intro other same
      obtain rfl : last = other := Option.some.inj (ended.symm.trans same)
      have known := evaluated _ best.mem
      rw [whole]
      change _ = Option.some ((b.run random).1.best.fitnessOrWorst.value)
      unfold Individual.isEvaluated at known
      unfold Individual.fitnessOrWorst
      cases found : (b.run random).1.best.fitness with
      | none => simp [found] at known
      | some f => rfl
    · rw [if_neg (by omega)]
      exact accounted.told

/-- The history has the statistics of every stage, in order. -/
theorem course_history (random : Stream) (some : b.settings.generations ≠ 0) :
    (b.course random).1.history =
      (b.stages random).zipIdx.map fun (stage, number) =>
        GenerationStats.ofPopulation number stage.evaluated := by
  rw [stages, course, bind_apply, bind_apply, if_neg some]
  generalize b.firstGeneration random = first
  obtain ⟨remaining, count⟩ := Nat.exists_eq_succ_of_ne_zero some
  obtain ⟨history, -⟩ := generations_stages (b := b) remaining 0 first.1 first.2
  rw [count, ← history]
  split
  · rfl
  · rfl

/-- From settings that are accepted, a run keeps account of its generations whatever their stream,
and every one of them has a whole population. -/
theorem run_keeps_account {s : Settings} {d : Directory} {seeding : Stream}
    (accepted : (prepare s d seeding).1.1 = .ok b) (random : Stream) :
    b.settings = s.evolution ∧ (b.run random).1.Accounted b ∧
      (∀ stage ∈ b.stages random, stage.bred.length = s.evolution.populationSize ∧
        stage.evaluated.length = s.evolution.populationSize) ∧
      (s.evolution.generations ≠ 0 → (b.run random).1.history =
        (b.stages random).zipIdx.map fun (stage, number) =>
          GenerationStats.ofPopulation number stage.evaluated) := by
  obtain ⟨kept, valid⟩ := prepare_settings s d seeding b accepted
  rw [← kept] at valid ⊢
  have two := Settings.Evolution.two_le_populationSize valid
  have positive : 0 < b.settings.populationSize := by omega
  refine ⟨rfl, run_accounted positive random, fun stage member => ?_, course_history random⟩
  obtain ⟨bred, evaluated, -⟩ := length_of_mem_stages positive random stage member
  exact ⟨bred, evaluated⟩

/-- Four programs that move at random, or do not, for three generations. -/
def fourfold : Settings where
  evolution := { populationSize := 4, generations := 3, maxRandomCodeSize := 3 }
  machine := { vectorDimensions := 1, instructions := ["boolean.erc", "vector.rand"] }
  optimisation := { problems := ["sphere"], moves := 2, runs := 2, swarmSize := 2 }

/-- There is no fitness to aim at, so all three generations take place. -/
theorem fourfold_keeps_account : ∃ b, (prepare fourfold {} (.ofSeed 0)).1.1 = .ok b ∧
    (b.run (.ofSeed 1)).1.Accounted b ∧
      (b.run (.ofSeed 1)).1.history.map (·.generation) = [0, 1, 2] := by
  have accepted : (prepare fourfold {} (.ofSeed 0)).1.1.isOk := by decide +kernel
  cases prepared : (prepare fourfold {} (.ofSeed 0)).1.1 with
  | error f =>
    rw [prepared] at accepted
    contradiction
  | ok b =>
    obtain ⟨settings, accounted, -⟩ := run_keeps_account prepared (.ofSeed 1)
    refine ⟨b, rfl, accounted, ?_⟩
    rcases accounted.complete with whole | ⟨last, -, reached⟩
    · rw [accounted.numbered, whole, settings]
      rfl
    · rw [reaches, settings] at reached
      contradiction

end Breeder
end SwarmEvolution
