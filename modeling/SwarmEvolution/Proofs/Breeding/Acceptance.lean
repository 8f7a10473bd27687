import SwarmEvolution.Proofs.Breeding.Simplifying
import SwarmEvolution.Proofs.Number.Order
import SwarmEvolution.Proofs.Swarm.Evaluating

/-! Simplification never makes an optimiser worse. All variants of a program are evaluated with one
seed, so that one that is taken over has a fitness at most that of the original. -/
namespace SwarmEvolution.Breeding

open Sampling Draw

/-- What is known of the best variant so far, under the evaluation that all variants share. -/
structure Simplified (evaluate : Individual → Evaluation) (original best : Individual) : Prop where
  single : best.genotype = .single best.program
  /-- The results are its own. -/
  fitness : best.fitness = some (evaluate best).fitness
  errors : best.errors = (evaluate best).errors
  noWorse : (evaluate best).fitness.value ≤ (evaluate original).fitness.value ∨
    best.program = original.program
  points : best.program.points ≤ original.program.points
  atoms : best.program.toCode.atoms.Sublist original.program.toCode.atoms
  swarmSize : best.swarmSize = original.swarmSize

section Evaluations

variable {evaluate : Individual → Evaluation} {original : Individual} {p : Program}
  (sees : ∀ i j : Individual, i.genotype = j.genotype → i.swarmSize = j.swarmSize →
    evaluate i = evaluate j)
  (single : original.genotype = .single p)

include sees single

/-- The original with its results. -/
theorem simplified_apply :
    Simplified evaluate original (original.apply (evaluate original)) := by
  have own : evaluate (original.apply (evaluate original)) = evaluate original := sees _ _ rfl rfl
  refine ⟨?_, ?_, ?_, .inr rfl, Nat.le_refl _, List.Sublist.refl _, rfl⟩
  · simp [Individual.apply, Individual.program, single]
  · rw [own]
    rfl
  · rw [own]
    rfl

/-- An attempt that is no worse than the best variant so far is no worse than the original. -/
theorem Simplified.retry {best : Individual} {q : Program}
    (known : Simplified evaluate original best) (points : q.points ≤ best.program.points)
    (atoms : q.toCode.atoms.Sublist best.program.toCode.atoms)
    (better : (retry evaluate best q).fitnessOrWorst.value ≤ best.fitnessOrWorst.value) :
    Simplified evaluate original (retry evaluate best q) := by
  have own : evaluate (Breeding.retry evaluate best q) = evaluate (best.setProgram q) :=
    sees _ _ rfl rfl
  have compared : (evaluate (best.setProgram q)).fitness.value ≤ (evaluate best).fitness.value := by
    rw [Individual.fitnessOrWorst, Individual.fitnessOrWorst, known.fitness] at better
    exact better
  refine ⟨rfl, ?_, ?_, .inl ?_, points.trans known.points, atoms.trans known.atoms,
    known.swarmSize⟩
  · rw [own]
    rfl
  · rw [own]
    rfl
  · rw [own]
    rcases known.noWorse with improved | same
    · exact Number.le_trans compared improved
    · -- The best variant so far is the original, which the shared evaluation judges alike.
      have unchanged : best.genotype = original.genotype := by
        rw [known.single, same, single, Individual.program, single]
      rw [← sees best original unchanged known.swarmSize]
      exact compared

theorem simplifyWith_simplified (attempts : Nat) {best : Individual}
    (known : Simplified evaluate original best) :
    (simplifyWith evaluate attempts best).Always (Simplified evaluate original) := by
  induction attempts generalizing best with
  | zero => exact always_pure known
  | succ attempts ih =>
    have step := (simplifies_points.and simplifies_atoms).simplifyStep best.program
    refine step.bind fun q? simpler => ?_
    cases q? with
    | none => exact always_pure known
    | some q =>
      obtain ⟨points, atoms⟩ := simpler q rfl
      dsimp only
      refine ih ?_
      split
      case isTrue better => exact known.retry sees single points atoms better
      case isFalse => exact known

end Evaluations

/-- With the seed that is drawn first, the outcome carries the results of its own evaluation, whose
fitness is at most that of the original's unless the program is still the original one; the program
is no larger and its atoms are some of the original's, in their order. -/
theorem simplify_never_worse {evaluate : Individual → UInt64 → Evaluation}
    (sees : ∀ seed, ∀ i j : Individual, i.genotype = j.genotype → i.swarmSize = j.swarmSize →
      evaluate i seed = evaluate j seed)
    (attempts : Nat) {original : Individual} {p : Program}
    (single : original.genotype = .single p) (random : Stream) :
    Simplified (evaluate · (Draw.wide random).1) original
      (simplify evaluate attempts original random).1 := by
  have first := simplified_apply (sees (Draw.wide random).1) single
  have all := simplifyWith_simplified (sees _) single attempts first (Draw.wide random).2
  rw [simplify, single]
  exact all

/-- Evaluations see nothing but the genotype and the swarm size. -/
theorem pair_simplify_never_worse :
    let pair := Individual.ofProgram ⟨[.atom (.boolean true), .atom (.boolean false)]⟩
    Simplified (Evaluator.duo.evaluate · (Draw.wide (.ofSeed 0)).1) pair
      (simplify Evaluator.duo.evaluate 3 pair (.ofSeed 0)).1 :=
  simplify_never_worse (fun seed _ _ genotype swarmSize =>
    Evaluator.duo.evaluate_congr genotype swarmSize seed) 3 rfl (.ofSeed 0)

end SwarmEvolution.Breeding
