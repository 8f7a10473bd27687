import SwarmEvolution.Breeding.Operators
import SwarmEvolution.Proofs.Number.Order

/-! The fittest individual of a population is the first one of lowest rank: all before it rank
higher, and none after it ranks lower. No other one's fitness is less as a number. -/
namespace SwarmEvolution

namespace Number

variable {ι : Type}

theorem lowest_go_spec (best : ι) (rank : Int) (rest : List (ι × Int)) :
    ∃ before r after, (best, rank) :: rest = before ++ (lowest?.go best rank rest, r) :: after ∧
      (∀ p ∈ before, r < p.2) ∧ ∀ p ∈ after, r ≤ p.2 := by
  induction rest generalizing best rank with
  | nil => exact ⟨[], rank, [], rfl, by simp, by simp⟩
  | cons p rest ih =>
    obtain ⟨i, s⟩ := p
    rw [lowest?.go]
    by_cases lower : s < rank
    · rw [if_pos lower]
      obtain ⟨before, r, after, whole, higher, others⟩ := ih i s
      have least : r ≤ s := by
        have member : (i, s) ∈ before ++ (lowest?.go i s rest, r) :: after :=
          whole ▸ List.mem_cons_self
        rcases List.mem_append.mp member with early | late
        · exact Int.le_of_lt (higher _ early)
        · rcases List.mem_cons.mp late with same | late
          · exact Int.le_of_eq (congrArg Prod.snd same).symm
          · exact others _ late
      refine ⟨(best, rank) :: before, r, after, ?_, ?_, others⟩
      · rw [whole, List.cons_append]
      · exact List.forall_mem_cons.mpr ⟨by omega, higher⟩
    · rw [if_neg lower]
      obtain ⟨before, r, after, whole, higher, others⟩ := ih best rank
      cases before with
      | nil =>
        obtain ⟨same, rfl⟩ := List.cons.inj whole
        obtain rfl : rank = r := congrArg Prod.snd same
        refine ⟨[], rank, (i, s) :: rest, ?_, by simp, ?_⟩
        · rw [← same]
          rfl
        · exact List.forall_mem_cons.mpr ⟨by omega, others⟩
      | cons first before =>
        obtain ⟨rfl, later⟩ := List.cons.inj whole
        obtain ⟨less, higher⟩ := List.forall_mem_cons.mp higher
        have lower : r < s := Int.lt_of_lt_of_le less (Int.not_lt.mp lower)
        refine ⟨(best, rank) :: (i, s) :: before, r, after, ?_, ?_, others⟩
        · exact congrArg (fun rest => (best, rank) :: (i, s) :: rest) later
        · exact List.forall_mem_cons.mpr ⟨less, List.forall_mem_cons.mpr ⟨lower, higher⟩⟩

theorem lowest_spec {ps : List (ι × Int)} (some : ps ≠ []) :
    ∃ before i r after, ps = before ++ (i, r) :: after ∧ lowest? ps = .some i ∧
      (∀ p ∈ before, r < p.2) ∧ ∀ p ∈ after, r ≤ p.2 := by
  cases ps with
  | nil => contradiction
  | cons p rest =>
    obtain ⟨before, r, after, whole, higher, others⟩ := lowest_go_spec p.1 p.2 rest
    exact ⟨before, _, r, after, whole, rfl, higher, others⟩

end Number

/-- The fittest individual of a population, and the first one of several. -/
def Individual.IsFittestOf (best : Individual) (population : List Individual) : Prop :=
  ∃ before after, population = before ++ best :: after ∧
    (∀ i ∈ before, best.fitnessOrWorst.rank < i.fitnessOrWorst.rank) ∧
      ∀ i ∈ after, best.fitnessOrWorst.rank ≤ i.fitnessOrWorst.rank

theorem forall_of_labelled {P : Int → Prop} {population : List Individual} {start : Nat}
    (all : ∀ p ∈ (population.zipIdx start).map (fun (i, k) => (k, i.fitnessOrWorst.rank)), P p.2) :
    ∀ i ∈ population, P i.fitnessOrWorst.rank := by
  intro i member
  rw [← List.zipIdx_map_fst start population] at member
  obtain ⟨p, among, rfl⟩ := List.mem_map.mp member
  exact all _ (List.mem_map_of_mem among)

/-- The position of the fittest individual parts the population into those before it, which all rank
higher, and those after it, none of which ranks lower. -/
theorem bestIndex_split {population : List Individual} (some : population ≠ []) :
    ∃ front best behind, population = front ++ best :: behind ∧
      bestIndex population = front.length ∧
      (∀ i ∈ front, best.fitnessOrWorst.rank < i.fitnessOrWorst.rank) ∧
        ∀ i ∈ behind, best.fitnessOrWorst.rank ≤ i.fitnessOrWorst.rank := by
  have ranked : population.zipIdx.map (fun (i, k) => (k, i.fitnessOrWorst.rank)) ≠ [] := by
    simpa using some
  obtain ⟨before, k, r, after, whole, lowest, higher, others⟩ := Number.lowest_spec ranked
  obtain ⟨early, rest, split, rfl, tail⟩ := List.map_eq_append_iff.mp whole
  obtain ⟨first, late, rfl, labelled, rfl⟩ := List.map_eq_cons_iff.mp tail
  obtain ⟨front, back, rfl, rfl, remaining⟩ := List.zipIdx_eq_append_iff.mp split
  obtain ⟨best, behind, rfl, rfl, rfl⟩ := List.zipIdx_eq_cons_iff.mp remaining.symm
  obtain ⟨rfl, rfl⟩ := Prod.mk.inj labelled
  have place : bestIndex (front ++ best :: behind) = front.length := by
    rw [bestIndex, lowest]
    simp
  exact ⟨front, best, behind, rfl, place, forall_of_labelled higher, forall_of_labelled others⟩

/-- The fittest individual is found in every population that has one at all. -/
theorem pick_bestIndex {population : List Individual} (some : population ≠ []) :
    (Breeding.pick population (bestIndex population)).IsFittestOf population := by
  obtain ⟨front, best, behind, rfl, place, higher, others⟩ := bestIndex_split some
  have picked : Breeding.pick (front ++ best :: behind) (bestIndex (front ++ best :: behind)) =
      best := by
    rw [place]
    simp [Breeding.pick]
  rw [picked]
  exact ⟨front, behind, rfl, higher, others⟩

namespace Individual.IsFittestOf

variable {best : Individual} {population : List Individual}

theorem mem (fittest : best.IsFittestOf population) : best ∈ population := by
  obtain ⟨before, after, rfl, -, -⟩ := fittest
  exact List.mem_append_right _ List.mem_cons_self

theorem rank_le (fittest : best.IsFittestOf population) :
    ∀ i ∈ population, best.fitnessOrWorst.rank ≤ i.fitnessOrWorst.rank := by
  obtain ⟨before, after, rfl, higher, others⟩ := fittest
  intro i member
  rcases List.mem_append.mp member with early | late
  · exact Int.le_of_lt (higher i early)
  · rcases List.mem_cons.mp late with rfl | late
    · exact Int.le_refl _
    · exact others i late

theorem not_lt (fittest : best.IsFittestOf population) :
    ∀ i ∈ population, ¬ i.fitnessOrWorst.value < best.fitnessOrWorst.value := by
  intro i member less
  have ranks := Fitness.rank_lt_of_value_lt less
  have lowest := fittest.rank_le i member
  omega

end Individual.IsFittestOf
end SwarmEvolution
