import SwarmEvolution.Evolution.Parallel
import SwarmEvolution.Proofs.Sampling.Outcomes

/-! Evolution does not depend on the order in which workers take their jobs. Whether they work side
by side or one after the other, a run comes to the same and leaves the same of its stream; only what
is told of the evaluations differs. -/
namespace SwarmEvolution

open Sampling Draw

namespace Job

variable {α β : Type} {work : α → β}

theorem perform_perform (job : Job α β) : perform work (perform work job) = perform work job := by
  cases job <;> rfl

/-- A job is done if its place is in the order, and however often it is there. -/
theorem getElem?_performAt (order : List Nat) (jobs : List (Job α β)) (k : Nat) :
    (performAt work order jobs)[k]? =
      if k ∈ order then jobs[k]?.map (perform work) else jobs[k]? := by
  induction order generalizing jobs with
  | nil => simp [performAt]
  | cons place rest ih =>
    have next : performAt work (place :: rest) jobs =
        performAt work rest (jobs.modify place (perform work)) := rfl
    rw [next, ih, List.getElem?_modify]
    by_cases here : place = k
    · subst here
      have twice : (perform work ∘ perform work : Job α β → Job α β) = perform work :=
        funext perform_perform
      simp [Option.map_map, twice]
    · simp [here, Ne.symm here]

/-- What comes of jobs that are all done is what comes of each of them. -/
theorem collect_eq_map {order : List Nat} {inputs : List α}
    (covered : ∀ k < inputs.length, k ∈ order) : collect work order inputs = inputs.map work := by
  have all : performAt work order (inputs.map waiting) = inputs.map fun a => done (work a) := by
    refine List.ext_getElem? fun k => ?_
    rw [getElem?_performAt, List.getElem?_map, List.getElem?_map]
    by_cases inside : k < inputs.length
    · rw [if_pos (covered k inside), Option.map_map]
      rfl
    · simp [List.getElem?_eq_none (Nat.le_of_not_lt inside)]
  rw [collect, all, List.filterMap_map]
  exact congrFun List.filterMap_eq_map inputs

example : collect (· + 1) [2, 0, 1] [10, 20, 30] = [11, 21, 31] := rfl

end Job

namespace Breeder

variable {b : Breeder}

theorem mem_workOrder {order : Nat → List Nat} {count k : Nat}
    (each : (order count).Perm (List.range count)) (below : k < count) :
    k ∈ b.workOrder order count := by
  unfold workOrder
  split
  · exact each.mem_iff.mpr (List.mem_range.mpr below)
  · exact List.mem_range.mpr below

section Orders

variable (b) (schedule : Schedule)

theorem evaluateAllUnder_eq (generation : Nat) (all : Bool) (population : List Individual) :
    b.evaluateAllUnder schedule generation all population = b.evaluateAll all population := by
  have collected : ∀ seeds : List UInt64,
      Job.collect (b.review all)
          (b.workOrder (schedule.evaluations generation) population.length)
          (population.zip seeds) =
        (population.zip seeds).map (b.review all) := by
    intro seeds
    refine Job.collect_eq_map fun k below => ?_
    have inside : k < population.length := by
      rw [List.length_zip] at below
      omega
    exact mem_workOrder (schedule.evaluations_perm ..) inside
  unfold evaluateAllUnder evaluateAll
  simp only [collected, List.map_zip_eq_zipWith]
  rfl

theorem breedCrowdingUnder_eq (generation : Nat) (population : List Individual) :
    b.breedCrowdingUnder schedule generation population = b.breedCrowding population := by
  have collected : ∀ jobs : List (List Individual × UInt64),
      (Job.collect b.compete (b.workOrder (schedule.groups generation) jobs.length) jobs).flatten =
        jobs.flatMap b.compete := by
    intro jobs
    rw [List.flatMap_def]
    congr 1
    exact Job.collect_eq_map fun k => mem_workOrder (schedule.groups_perm ..)
  unfold breedCrowdingUnder breedCrowding
  simp only [collected]
  rfl

theorem breedUnder_eq (generation : Nat) (population : List Individual) :
    b.breedUnder schedule generation population = b.breed population := by
  unfold breedUnder
  rw [breedCrowdingUnder_eq]
  rfl

theorem generationUnder_eq (number : Nat) (population : List Individual) :
    b.generationUnder schedule number population = b.generation number population := by
  unfold generationUnder generation
  rw [evaluateAllUnder_eq]

theorem generationsUnder_eq (remaining number : Nat) (population : List Individual) :
    b.generationsUnder schedule remaining number population =
      b.generations remaining number population := by
  induction remaining generalizing number population with
  | zero => rfl
  | succ remaining ih =>
    unfold generationsUnder generations
    simp only [generationUnder_eq, breedUnder_eq, ih]

/-- Any order of the work leads to the same. -/
theorem runUnder_eq : b.runUnder schedule = b.run := by
  have course : b.courseUnder schedule = b.course := by
    unfold courseUnder course
    simp only [generationsUnder_eq, evaluateAllUnder_eq]
  unfold runUnder run
  rw [course]

end Orders

end Breeder

/-- Settings whose workers work side by side, or one after the other. -/
def Settings.inParallel (s : Settings) (on : Bool) : Settings :=
  { s with evolution := { s.evolution with parallelEvaluation := on } }

/-- A result without what is told on the way to it. -/
def EvolutionResult.silent (r : EvolutionResult) : EvolutionResult := { r with progress := [] }

namespace Breeder

variable {b : Breeder}

def inParallel (b : Breeder) (on : Bool) : Breeder :=
  { b with settings := { b.settings with parallelEvaluation := on } }

def Course.silent (c : Course) : Course := { c with progress := [] }

section Modes

variable (b) (on : Bool)

theorem children_inParallel (parents : List Individual) :
    (b.inParallel on).children parents = b.children parents := by
  fun_induction children b parents with
  | case1 first second rest ih =>
    rw [children, ih]
    rfl
  | case2 => rfl
  | case3 => rfl

theorem crowd_inParallel : (b.inParallel on).crowd = b.crowd := by
  funext parents
  unfold crowd
  rw [children_inParallel]
  rfl

theorem breedCrowding_inParallel : (b.inParallel on).breedCrowding = b.breedCrowding := by
  unfold breedCrowding
  rw [crowd_inParallel]
  rfl

theorem breed_inParallel : (b.inParallel on).breed = b.breed := by
  unfold breed
  rw [breedCrowding_inParallel]
  rfl

-- A generation differs in what is told of it only, so what may differ is kept out from here on.
theorem generation_inParallel (number : Nat) (population : List Individual) :
    Course.silent <$> (b.inParallel on).generation number population =
      Course.silent <$> b.generation number population := rfl

theorem generations_inParallel (remaining number : Nat) (population : List Individual) :
    Course.silent <$> (b.inParallel on).generations remaining number population =
      Course.silent <$> b.generations remaining number population := by
  induction remaining generalizing number population with
  | zero => rfl
  | succ remaining ih =>
    unfold generations
    refine map_bind_congr (b.generation_inParallel on number population) fun c c' same => ?_
    obtain ⟨living, -, reached, -⟩ := Course.mk.inj same
    rw [living, reached, breed_inParallel]
    -- What is told decides nothing, so both stop here or both go on.
    split
    · exact congrArg (pure (f := Draw)) same
    · rw [map_bind, map_bind]
      refine bind_congr fun next => ?_
      refine map_bind_congr (ih (number + 1) next) fun later later' alike => ?_
      exact congrArg₂ (fun c later => (pure (c.followedBy later) : Draw Course)) same alike

theorem course_inParallel :
    Course.silent <$> (b.inParallel on).course = Course.silent <$> b.course := by
  unfold course
  rw [map_bind, map_bind]
  refine bind_congr fun first => ?_
  refine map_bind_congr (b.generations_inParallel on _ 0 first) fun c c' same => ?_
  obtain ⟨living, history, reached, -⟩ := Course.mk.inj same
  rw [living, history, reached]
  split
  · rfl
  · exact congrArg (pure (f := Draw)) same

theorem run_inParallel :
    EvolutionResult.silent <$> (b.inParallel on).run = EvolutionResult.silent <$> b.run := by
  unfold run
  refine map_bind_congr (b.course_inParallel on) fun c c' same => ?_
  obtain ⟨living, history, reached, -⟩ := Course.mk.inj same
  rw [living, history, reached]
  rfl

end Modes

/-- Whether workers work side by side is not looked at before the run. -/
theorem prepare_inParallel (s : Settings) (d : Directory) (on : Bool) :
    prepare (s.inParallel on) d =
      Prod.map (Except.map (·.inParallel on)) id <$> prepare s d := by
  unfold prepare
  have checked : (s.inParallel on).validate = s.validate := rfl
  rw [checked]
  split
  · rfl
  have machine : (s.inParallel on).machine = s.machine := rfl
  rw [machine]
  split
  · rfl
  rw [map_bind]
  refine bind_congr fun problems => ?_
  split
  · rfl
  rw [map_bind]
  refine bind_congr fun started => ?_
  obtain ⟨starts, after⟩ := started
  have twice : ∀ (make : Evaluator → Breeder) (made : Except Failure Evaluator),
      (made.map make).map (·.inParallel on) = made.map fun e => (make e).inParallel on := by
    intro make made
    cases made <;> rfl
  rw [map_pure, Prod.map_apply, twice]
  rfl

/-- Workers side by side come to the same as workers one after the other, in whatever order they
take their jobs, and leave the same of the stream. -/
theorem evolve_order_independent (s : Settings) (d : Directory) (schedule : Schedule) :
    Except.map EvolutionResult.silent <$> evolveUnder (s.inParallel true) d schedule =
      Except.map EvolutionResult.silent <$> evolve (s.inParallel false) d := by
  unfold evolveUnder evolve
  rw [prepare_inParallel, prepare_inParallel]
  simp only [runUnder_eq]
  rw [map_bind, map_bind, bind_map_left, bind_map_left]
  refine bind_congr fun prepared => ?_
  obtain ⟨breeder, after⟩ := prepared
  cases breeder with
  | error f => rfl
  | ok b =>
    refine map_bind_congr ((b.run_inParallel true).trans (b.run_inParallel false).symm) ?_
    exact fun r r' same => congrArg (fun r => (pure (Except.ok r) : Draw (Except Failure _))) same

end Breeder
end SwarmEvolution
