import SwarmEvolution.Proofs.Number.Means
import SwarmEvolution.Proofs.Swarm.PersonalBest

/-! The best value of a run is the lowest of the errors that the run has met. Comparison leaves out
the errors that are no numbers, and so no evaluation comes to one. -/
namespace SwarmEvolution

open Sampling Draw Number

namespace Swarm

/-- A best value is left of some errors: it is the largest number or one of them, and those of them
that are numbers are no lower. -/
structure LowestOf (errors : List Float32) (best : Float32) : Prop where
  number : best.isNaN = false
  bounded : best ≤ largest
  met : best = largest ∨ best ∈ errors
  lowest : ∀ x ∈ errors, x.isNaN = false → best ≤ x

/-- The value that is left of a best value and some errors. -/
def lowestFrom (best : Float32) (errors : List Float32) : Float32 :=
  errors.foldl (fun best value => lowerTo value best) best

section Lowest

variable {errors : List Float32} {best : Float32}

theorem lowestOf_nil : LowestOf [] largest where
  number := by decide
  bounded := by decide
  met := .inl rfl
  lowest := by simp

/-- An error that is no number is not lower than anything, and leaves the best value as it is. -/
theorem LowestOf.append (own : LowestOf errors best) (value : Float32) :
    LowestOf (errors ++ [value]) (lowerTo value best) := by
  obtain ⟨number, bounded, met, lowest⟩ := own
  unfold lowerTo
  by_cases lower : value < best
  · rw [if_pos lower]
    obtain ⟨numeric, -, below⟩ := lt_iff.mp lower
    have further : ∀ x, best ≤ x → value ≤ x := by
      intro x atMost
      obtain ⟨-, other, order⟩ := le_iff.mp atMost
      exact le_iff.mpr ⟨numeric, other, by omega⟩
    refine ⟨numeric, further _ bounded, .inr (by simp), fun x member known => ?_⟩
    rcases List.mem_append.mp member with before | last
    · exact further x (lowest x before known)
    · obtain rfl := List.mem_singleton.mp last
      exact le_iff.mpr ⟨numeric, numeric, Int.le_refl _⟩
  · rw [if_neg lower]
    refine ⟨number, bounded, met.imp_right (List.mem_append_left _), fun x member known => ?_⟩
    rcases List.mem_append.mp member with before | last
    · exact lowest x before known
    · obtain rfl := List.mem_singleton.mp last
      exact (not_lt_iff known number).mp lower

theorem LowestOf.append_all (own : LowestOf errors best) (more : List Float32) :
    LowestOf (errors ++ more) (lowestFrom best more) := by
  induction more generalizing errors best with
  | nil => simpa [lowestFrom] using own
  | cons value more ih =>
    have next := ih (own.append value)
    rwa [List.append_assoc] at next

theorem lowerTo_twice (value best : Float32) :
    lowerTo value (lowerTo value best) = lowerTo value best := by
  unfold lowerTo
  by_cases lower : value < best
  · rw [if_pos lower, ite_self]
  · rw [if_neg lower, if_neg lower]

/-- One error is left of errors that are all the same. -/
theorem lowestFrom_flat {value : Float32} (some : errors ≠ [])
    (flat : ∀ x ∈ errors, x = value) : lowestFrom best errors = lowerTo value best := by
  induction errors generalizing best with
  | nil => contradiction
  | cons x rest ih =>
    obtain ⟨rfl, same⟩ := List.forall_mem_cons.mp flat
    cases rest with
    | nil => rfl
    | cons y rest =>
      have later : lowestFrom (lowerTo x best) (y :: rest) = lowerTo x (lowerTo x best) :=
        ih (List.cons_ne_nil y rest) same
      exact later.trans (lowerTo_twice x best)

end Lowest

variable {c : Course}

/-- The errors at the points where the members are. -/
def State.currentErrors (problem : Problem) (s : State) : List Float32 :=
  s.members.toList.map fun m => problem.error m.current

/-- The error at the point that a turn leads to, if the point is within the bounds. -/
def Turn.error? (c : Course) (t : Turn) : Option Float32 :=
  match (t.after c).members[t.index]? with
  | some m => if c.problem.within m.current then some (c.problem.error m.current) else none
  | none => none

theorem Turn.exists_of_error? {t : Turn} {value : Float32} (led : t.error? c = some value) :
    ∃ p, c.problem.error p = value := by
  unfold error? at led
  split at led
  case h_1 m _ =>
    split at led
    · exact ⟨m.current, Option.some.inj led⟩
    · contradiction
  case h_2 => contradiction

theorem Turn.bestValue_after (t : Turn) :
    (t.after c).bestValue = lowestFrom t.before.bestValue (t.error? c).toList := by
  cases own : t.before.members[t.index]? with
  | none =>
    have same : t.after c = t.before := by
      unfold after outcome turn
      rw [own]
      rfl
    rw [error?, same, own]
    rfl
  | some member =>
    have inside := (Array.getElem?_eq_some_iff.mp own).1
    have judged := Member.settle_judged c.problem (t.ran c member).frame member
    have moved := after_members (c := c) own
    have value : (t.after c).bestValue =
        if c.problem.within (member.settle c.problem (t.ran c member).frame).current then
          lowerTo (member.settle c.problem (t.ran c member).frame).currentValue t.before.bestValue
        else t.before.bestValue := by
      rw [Turn.after_eq own]
      rfl
    rw [error?, value, moved, Array.getElem?_setIfInBounds_self_of_lt inside]
    generalize member.settle c.problem (t.ran c member).frame = m at judged ⊢
    by_cases within : c.problem.within m.current
    · rw [(judged.inside within).1]
      simp [within, lowestFrom]
    · simp [within, lowestFrom]

theorem lowestFrom_append (best : Float32) (first rest : List Float32) :
    lowestFrom best (first ++ rest) = lowestFrom (lowestFrom best first) rest :=
  List.foldl_append

/-- Turns that follow each other let go of what is higher than the errors they lead to. -/
theorem Chained.bestValue {ts : List Turn} {first last : State × Stream}
    (chained : Chained c ts first last) :
    last.1.bestValue = lowestFrom first.1.bestValue (ts.filterMap (Turn.error? c)) := by
  induction ts generalizing first with
  | nil =>
    obtain rfl := chained
    rfl
  | cons t ts ih =>
    obtain ⟨rfl, rest⟩ := chained
    have turned : (t.outcome c).1.bestValue = _ := t.bestValue_after
    have met : (t :: ts).filterMap (Turn.error? c) =
        (t.error? c).toList ++ ts.filterMap (Turn.error? c) := by
      cases led : t.error? c with
      | none => simp [led]
      | some value => simp [led]
    rw [ih rest, turned, met, lowestFrom_append]

theorem opening_bestValue (start? : Nat → Option Point) (size moves : Nat) (record : Bool) :
    (opening c start? size moves record).Always fun s =>
      s.bestValue = lowestFrom largest (s.currentErrors c.problem) := by
  have started : (startMembers c.problem start? size).Always fun started =>
      started.2 = lowestFrom largest (started.1.toList.map fun m => c.problem.error m.current) :=
    always_bind fun points => always_pure (by simp [lowestFrom, List.foldl_map, Member.start])
  exact always_bind fun _ => started.bind fun _ lowest => always_pure lowest

end Swarm

namespace Evaluator

variable (e : Evaluator) (i : Individual)

section Runs

variable (problem : Problem) (index runNumber : Nat) (record : Bool) (random : Stream)

/-- The errors that a run meets: at the start points, and at the points within the bounds that its
turns lead to. -/
def errorsMet : List Float32 :=
  (e.opening i problem index runNumber record random).1.currentErrors problem ++
    (e.turns i problem index runNumber record random).filterMap
      (Swarm.Turn.error? (e.course i problem))

theorem exists_of_mem_errorsMet :
    ∀ x ∈ e.errorsMet i problem index runNumber record random, ∃ p, problem.error p = x := by
  intro x member
  rcases List.mem_append.mp member with start | later
  · obtain ⟨m, -, same⟩ := List.mem_map.mp start
    exact ⟨m.current, same⟩
  · obtain ⟨t, -, led⟩ := List.mem_filterMap.mp later
    exact Swarm.Turn.exists_of_error? led

theorem run_bestValue : (e.run i problem index runNumber record random).1.bestValue =
    Swarm.lowestFrom largest (e.errorsMet i problem index runNumber record random) := by
  have opened : (e.opening i problem index runNumber record random).1.bestValue = _ :=
    Swarm.opening_bestValue _ _ _ _ random
  rw [(e.run_chained i problem index runNumber record random).bestValue, opened, errorsMet,
    Swarm.lowestFrom_append]
  rfl

theorem run_lowest : Swarm.LowestOf (e.errorsMet i problem index runNumber record random)
    (e.run i problem index runNumber record random).1.bestValue := by
  rw [run_bestValue]
  exact Swarm.lowestOf_nil.append_all _

/-- A swarm that is not empty meets an error at every start point. -/
theorem errorsMet_ne_nil (size : 0 < e.swarmSize i) :
    e.errorsMet i problem index runNumber record random ≠ [] := by
  have started : (e.opening i problem index runNumber record random).1.members.size =
      e.swarmSize i := (Swarm.opening_always _ _ _ _ random).1
  refine List.append_ne_nil_of_left_ne_nil (List.ne_nil_of_length_pos ?_) _
  rwa [Swarm.State.currentErrors, List.length_map, Array.length_toList, started]

end Runs

variable {e i}

theorem run_upTo_largest (problem : Problem) (index runNumber : Nat) (record : Bool) :
    (e.run i problem index runNumber record).Always
      (UpTo false (Format.single.infinity - 1) ·.bestValue) :=
  fun random => upTo_of_le_largest (e.run_lowest i problem index runNumber record random).bounded

/-- Where no error is below zero, no best value is. -/
theorem run_upTo_zero {problem : Problem} (above : ∀ x, ¬ problem.error x < 0)
    (index runNumber : Nat) (record : Bool) :
    (e.run i problem index runNumber record).Always (UpTo true 0 ·.bestValue) := by
  intro random
  have lowest := e.run_lowest i problem index runNumber record random
  refine upTo_of_not_lt_zero lowest.number ?_
  rcases lowest.met with last | met
  · rw [last]
    decide
  · obtain ⟨p, same⟩ := e.exists_of_mem_errorsMet i problem index runNumber record random _ met
    rw [← same]
    exact above p

section Means

variable {side : Bool} {magnitude : Nat} {outcomes : List Swarm.State} {errors : List Float32}

theorem meanError_eq (outcomes : List Swarm.State) (runs : Nat) :
    meanError outcomes runs =
      ((Double.sum (.finite false 0) ((outcomes.map (·.bestValue)).map Double.ofSingle)).dividedBy
        (max runs 1)).toSingle := by
  rw [List.map_map]
  rfl

theorem meanError_number (runs : Nat) (small : magnitude < Format.single.infinity)
    (each : ∀ s ∈ outcomes, UpTo side magnitude s.bestValue) :
    (meanError outcomes runs).isNaN = false := by
  rw [meanError_eq]
  exact Double.mean_number small (by simpa using each)

theorem meanError_upTo_largest {runs : Nat} (few : runs < 2 ^ 30 + 62)
    (length : outcomes.length ≤ runs)
    (each : ∀ s ∈ outcomes, UpTo side (Format.single.infinity - 1) s.bestValue) :
    UpTo side (Format.single.infinity - 1) (meanError outcomes runs) := by
  rw [meanError_eq]
  have all : (outcomes.map (·.bestValue)).length ≤ max runs 1 := by
    rw [List.length_map]
    omega
  exact Double.mean_upTo_largest (by omega) (by omega) all (by simpa using each)

theorem meanError_upTo_zero (runs : Nat) (each : ∀ s ∈ outcomes, UpTo side 0 s.bestValue) :
    UpTo side 0 (meanError outcomes runs) := by
  rw [meanError_eq]
  exact Double.mean_upTo_zero (by omega) (by simpa using each)

theorem meanOfErrors_number (small : magnitude < Format.single.infinity)
    (each : ∀ x ∈ errors, UpTo side magnitude x) : (meanOfErrors errors).isNaN = false := by
  unfold meanOfErrors
  split
  · decide
  · exact Double.mean_number small each

theorem meanOfErrors_infinities (positive : 1 / 0 ∈ errors) (negative : -1 / 0 ∈ errors) :
    (meanOfErrors errors).isNaN = true := by
  have up : Double.ofSingle (1 / 0) = .infinite false := by decide +kernel
  have down : Double.ofSingle (-1 / 0) = .infinite true := by decide +kernel
  have some : errors.isEmpty = false := List.isEmpty_eq_false_iff_exists_mem.mpr ⟨_, positive⟩
  have lost : Double.sum (.finite true 0) (errors.map Double.ofSingle) = .notANumber :=
    Double.sum_infinities _ (up ▸ List.mem_map_of_mem positive)
      (down ▸ List.mem_map_of_mem negative)
  rw [meanOfErrors, some, if_neg Bool.false_ne_true]
  change ((Double.sum _ (errors.map Double.ofSingle)).dividedBy _).toSingle.isNaN = true
  rw [lost]
  exact show Double.notANumber.toSingle.isNaN = true by decide

end Means

section Evaluation

variable {P : Float32 → Prop}

theorem runsOn_always {problem : Problem} {index : Nat} (one : ∀ runNumber record,
    (e.run i problem index runNumber record).Always fun s => P s.bestValue) :
    (e.runsOn i problem index).Always fun outcomes => outcomes.length = e.optimisation.runs ∧
      ∀ s ∈ outcomes, P s.bestValue := by
  intro random
  constructor
  · exact (each_length _ _ random).trans List.length_range
  · exact always_each (fun number _ => one number _) random

/-- What is always so of the mean error on each problem is so of the errors of an evaluation. -/
theorem evaluate_errors (one : ∀ p ∈ e.problems, ∀ index,
    (e.runsOn i p index).Always fun outcomes => P (meanError outcomes e.optimisation.runs))
    (seed : UInt64) : ∀ x ∈ (e.evaluate i seed).errors, P x := by
  have all : (each (fun p => e.runsOn i p.1 p.2) e.problems.zipIdx).Always fun outcomes =>
      ∀ x ∈ outcomes, P (meanError x e.optimisation.runs) :=
    always_each fun p member => one p.1 (List.fst_mem_of_mem_zipIdx member) p.2
  intro x member
  obtain ⟨outcomes, among, rfl⟩ := List.mem_map.mp member
  exact all _ outcomes among

theorem evaluate_fitness (seed : UInt64) :
    (e.evaluate i seed).fitness.value = meanOfErrors (e.evaluate i seed).errors :=
  Float32.ofBits_toBits _

theorem errors_number (seed : UInt64) : ∀ x ∈ (e.evaluate i seed).errors, x.isNaN = false := by
  have finite : Format.single.infinity - 1 < Format.single.infinity := by decide
  refine evaluate_errors (fun p _ index => ?_) seed
  refine (runsOn_always (run_upTo_largest p index)).mono fun outcomes all => ?_
  exact meanError_number _ finite all.2

theorem errors_upTo_largest (few : e.optimisation.runs < 2 ^ 30 + 62) (seed : UInt64) :
    ∀ x ∈ (e.evaluate i seed).errors, UpTo false (Format.single.infinity - 1) x := by
  refine evaluate_errors (fun p _ index => ?_) seed
  refine (runsOn_always (run_upTo_largest p index)).mono fun outcomes all => ?_
  exact meanError_upTo_largest few (Nat.le_of_eq all.1) all.2

theorem errors_upTo_zero (above : ∀ p ∈ e.problems, ∀ x, ¬ p.error x < 0) (seed : UInt64) :
    ∀ x ∈ (e.evaluate i seed).errors, UpTo true 0 x := by
  refine evaluate_errors (fun p member index => ?_) seed
  refine (runsOn_always (run_upTo_zero (above p member) index)).mono fun outcomes all => ?_
  exact meanError_upTo_zero _ all.2

theorem fitness_number {side : Bool} {magnitude : Nat} {seed : UInt64}
    (small : magnitude < Format.single.infinity)
    (each : ∀ x ∈ (e.evaluate i seed).errors, UpTo side magnitude x) :
    (e.evaluate i seed).fitness.value.isNaN = false := by
  rw [evaluate_fitness]
  exact meanOfErrors_number small each

/-- A fitness is NaN if the mean errors of two problems are opposite infinities, and only then. -/
theorem fitness_isNaN_iff (seed : UInt64) : (e.evaluate i seed).fitness.value.isNaN = true ↔
    1 / 0 ∈ (e.evaluate i seed).errors ∧ -1 / 0 ∈ (e.evaluate i seed).errors := by
  have member : (e.evaluate i seed).fitness.value.isNaN = true →
      ∀ side, (Double.infinite side).toSingle ∈ (e.evaluate i seed).errors := by
    intro lost side
    by_contra absent
    have each : ∀ x ∈ (e.evaluate i seed).errors, UpTo side (Format.single.infinity - 1) x :=
      fun x among => Double.upTo_of_ne_infinite (errors_number seed x among)
        fun same => absent (same ▸ among)
    exact Bool.false_ne_true ((fitness_number (by decide) each).symm.trans lost)
  have up : (Double.infinite false).toSingle = 1 / 0 := by decide +kernel
  have down : (Double.infinite true).toSingle = -1 / 0 := by decide +kernel
  constructor
  · exact fun lost => ⟨up ▸ member lost false, down ▸ member lost true⟩
  · rintro ⟨positive, negative⟩
    rw [evaluate_fitness]
    exact meanOfErrors_infinities positive negative

end Evaluation

section Flat

/-- Where the error is the same everywhere, every run comes to it or to the largest number. -/
theorem run_flat {problem : Problem} {value : Float32} (flat : ∀ x, problem.error x = value)
    (size : 0 < e.swarmSize i) (index runNumber : Nat) (record : Bool) :
    (e.run i problem index runNumber record).Always
      (·.bestValue = Swarm.lowerTo value largest) := by
  intro random
  rw [run_bestValue]
  refine Swarm.lowestFrom_flat (e.errorsMet_ne_nil i problem index runNumber record random size) ?_
  intro x member
  obtain ⟨p, rfl⟩ := e.exists_of_mem_errorsMet i problem index runNumber record random x member
  exact flat p

/-- The mean of so many runs that all come to the same best value. -/
def sameMean (runs : Nat) (best : Float32) : Float32 :=
  ((Double.sum (.finite false 0) (List.replicate runs (Double.ofSingle best))).dividedBy
    (max runs 1)).toSingle

theorem meanError_same {outcomes : List Swarm.State} {best : Float32} {runs : Nat}
    (length : outcomes.length = runs) (each : ∀ s ∈ outcomes, s.bestValue = best) :
    meanError outcomes runs = sameMean runs best := by
  have all : (outcomes.map (·.bestValue)).map Double.ofSingle =
      List.replicate runs (Double.ofSingle best) := by
    rw [List.map_eq_replicate_iff.mpr each, List.map_replicate, length]
  rw [meanError_eq, all]
  rfl

theorem evaluate_flat (size : 0 < e.swarmSize i)
    (flat : ∀ p ∈ e.problems, ∀ x, p.error x = p.error []) (seed : UInt64) :
    (e.evaluate i seed).errors = e.problems.map fun p =>
      sameMean e.optimisation.runs (Swarm.lowerTo (p.error []) largest) := by
  let mean := fun p : Problem =>
    sameMean e.optimisation.runs (Swarm.lowerTo (p.error []) largest)
  have all : (each (fun p => e.runsOn i p.1 p.2) e.problems.zipIdx).Always fun outcomes =>
      outcomes.map (meanError · e.optimisation.runs) = e.problems.zipIdx.map (mean ∘ Prod.fst) := by
    refine each_map fun p member => ?_
    have same := flat p.1 (List.fst_mem_of_mem_zipIdx member)
    have one := run_flat (e := e) (i := i) same size p.2
    refine (runsOn_always (P := (· = Swarm.lowerTo (p.1.error []) largest)) one).mono
      fun outcomes all => ?_
    exact meanError_same all.1 all.2
  have errors : (e.evaluate i seed).errors = _ := all _
  rw [errors, ← List.map_map, List.zipIdx_map_fst]

end Flat

variable (e i)

/-- The best value of every run is the lowest of the errors that the run has met, and so no mean
error is NaN. A fitness is NaN only if the mean errors are infinite on both sides, for which there
must be errors below zero and more than `2 ^ 30 + 61` runs on each problem. -/
theorem runs_lowest_means_numeric :
    (∀ problem index runNumber record random,
      Swarm.LowestOf (e.errorsMet i problem index runNumber record random)
        (e.run i problem index runNumber record random).1.bestValue) ∧
    ∀ seed, (∀ x ∈ (e.evaluate i seed).errors, x.isNaN = false) ∧
      ((e.evaluate i seed).fitness.value.isNaN = true ↔
        1 / 0 ∈ (e.evaluate i seed).errors ∧ -1 / 0 ∈ (e.evaluate i seed).errors) ∧
      (e.optimisation.runs < 2 ^ 30 + 62 ∨ (∀ p ∈ e.problems, ∀ x, ¬ p.error x < 0) →
        (e.evaluate i seed).fitness.value.isNaN = false) := by
  refine ⟨fun _ _ _ _ _ => e.run_lowest .., fun seed => ?_⟩
  refine ⟨errors_number seed, fitness_isNaN_iff seed, fun few => ?_⟩
  rcases few with bounded | above
  · exact fitness_number (by decide) (errors_upTo_largest bounded seed)
  · exact fitness_number (by decide) (errors_upTo_zero above seed)

theorem duo_means_numeric : duo.optimisation.runs < 2 ^ 30 + 62 ∧
    (duo.evaluate wandering 0).fitness.value.isNaN = false := by
  have few : duo.optimisation.runs < 2 ^ 30 + 62 := by decide
  exact ⟨few, ((runs_lowest_means_numeric duo wandering).2 0).2.2 (.inl few)⟩

/-- Many runs on two problems without slopes, one whose error is never a number and one whose error
is lower than all numbers. -/
def opposed : Evaluator :=
  { lone with
    optimisation := { lone.optimisation with runs := 2 ^ 30 + 62 }
    problems := [{ Problem.line with error := fun _ => 0 / 0 },
      { Problem.line with error := fun _ => -1 / 0 }] }

/-- There the means are the two infinities, and the fitness is NaN. -/
theorem opposed_fitness_isNaN : 0 < opposed.optimisation.runs ∧
    ofParts opposed.machine opposed.optimisation opposed.problems opposed.starts
      opposed.keepTrajectories = .ok opposed ∧
    (opposed.evaluate (.ofProgram default) 0).fitness.value.isNaN = true := by
  refine ⟨by decide, rfl, ?_⟩
  have flat : ∀ p ∈ opposed.problems, ∀ x, p.error x = p.error [] := by
    simp [opposed]
  have high : sameMean (2 ^ 30 + 62) largest = 1 / 0 := Double.mean_largest_infinite
  have low : sameMean (2 ^ 30 + 62) (-1 / 0) = -1 / 0 := by
    have wide : Double.ofSingle (-1 / 0) = .infinite true := by decide +kernel
    unfold sameMean
    rw [wide, Double.sum_replicate_infinite (by decide)]
    decide +kernel
  have errors : (opposed.evaluate (.ofProgram default) 0).errors = [1 / 0, -1 / 0] := by
    have no : Swarm.lowerTo (0 / 0) largest = largest := by decide
    have lowest : Swarm.lowerTo (-1 / 0) largest = -1 / 0 := by decide
    rw [evaluate_flat (by decide) flat]
    change [sameMean (2 ^ 30 + 62) (Swarm.lowerTo (0 / 0) largest),
      sameMean (2 ^ 30 + 62) (Swarm.lowerTo (-1 / 0) largest)] = _
    rw [no, lowest, high, low]
  rw [fitness_isNaN_iff, errors]
  simp

end Evaluator
end SwarmEvolution
