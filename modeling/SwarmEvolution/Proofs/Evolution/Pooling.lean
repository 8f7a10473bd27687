import SwarmEvolution.Evolution.Run
import SwarmEvolution.Proofs.Evolution.Fittest

/-! The pool of the fittest programs. Individuals are ranked by fitness and, where that is equal, by
their place in the population, and the pool takes them from the front. The ranking and the search
for the fittest individual are written apart, but prefer the same one of several. -/
namespace SwarmEvolution

open Breeding

/-- The place of a member of the population in the total order of fitness. -/
def rankAt (population : List Individual) (i : Nat) : Int :=
  (pick population i).fitnessOrWorst.rank

/-- The member `i` ranks before the member `k`; of two with equal ranks, the earlier one does. -/
def Precedes (population : List Individual) (i k : Nat) : Prop :=
  rankAt population i < rankAt population k ∨ rankAt population i = rankAt population k ∧ i < k

section Precedes

variable {population : List Individual} {i k : Nat}

theorem Precedes.asymm (first : Precedes population i k) : ¬ Precedes population k i := by
  unfold Precedes at *
  omega

theorem Precedes.rank_le (first : Precedes population i k) :
    rankAt population i ≤ rankAt population k := by
  unfold Precedes at first
  omega

theorem pick_append_left {front behind : List Individual} (inside : i < front.length) :
    pick (front ++ behind) i ∈ front := by
  rw [pick, List.getElem?_append_left inside, List.getElem?_eq_getElem inside]
  exact List.getElem_mem inside

theorem pick_append_right {front behind : List Individual} {best : Individual}
    (later : front.length < i) (inside : i < (front ++ best :: behind).length) :
    pick (front ++ best :: behind) i ∈ behind := by
  obtain ⟨m, rfl⟩ := Nat.exists_eq_add_of_lt later
  have left : m < behind.length := by
    simp only [List.length_append, List.length_cons] at inside
    omega
  have found : (front ++ best :: behind)[front.length + m + 1]? = some behind[m] := by
    rw [Nat.add_assoc, List.getElem?_append_right (Nat.le_add_right ..), Nat.add_sub_cancel_left,
      List.getElem?_cons_succ, List.getElem?_eq_getElem left]
  rw [pick, found]
  exact List.getElem_mem left

/-- The fittest individual ranks before all others. -/
theorem bestIndex_precedes (some : population ≠ []) :
    bestIndex population < population.length ∧
      ∀ i < population.length, i ≠ bestIndex population →
        Precedes population (bestIndex population) i := by
  obtain ⟨front, best, behind, rfl, place, higher, others⟩ := bestIndex_split some
  have found : pick (front ++ best :: behind) front.length = best := by simp [pick]
  rw [place]
  refine ⟨by simp, fun i inside apart => ?_⟩
  rcases Nat.lt_or_gt_of_ne apart with earlier | later
  · have among : pick (front ++ best :: behind) i ∈ front := pick_append_left earlier
    have less := higher _ among
    exact .inl (by rw [rankAt, rankAt, found]; exact less)
  · have noLess := others _ (pick_append_right later inside)
    rcases Int.le_iff_lt_or_eq.mp noLess with less | equal
    · exact .inl (by rw [rankAt, rankAt, found]; exact less)
    · exact .inr ⟨by rw [rankAt, rankAt, found]; exact equal, later⟩

end Precedes

/-- The sort by fitness lists all members of the population in the order in which they rank, since
it is stable. -/
theorem exists_ranking (population : List Individual) :
    ∃ order : List Nat, order.Perm (List.range population.length) ∧
      order.Pairwise (Precedes population) ∧
      population.mergeSort (fun a b => a.fitnessOrWorst.rank ≤ b.fitnessOrWorst.rank) =
        order.map (pick population) := by
  let le (a b : Individual) : Bool := a.fitnessOrWorst.rank ≤ b.fitnessOrWorst.rank
  let labelled := population.zipIdx.mergeSort (List.zipIdxLE le)
  have perm : labelled.Perm population.zipIdx := List.mergeSort_perm ..
  have named : ∀ p ∈ labelled, pick population p.2 = p.1 := fun p member => by
    rw [pick, List.mem_zipIdx_iff_getElem?.mp (perm.mem_iff.mp member), Option.getD_some]
  have order_perm : (labelled.map (·.2)).Perm (List.range population.length) := by
    have places := perm.map (·.2)
    rwa [List.zipIdx_map_snd, ← List.range_eq_range'] at places
  have sorted : labelled.Pairwise fun p q => List.zipIdxLE le p q = true := by
    refine List.pairwise_mergeSort (List.zipIdxLE_trans fun a b c => ?_)
      (List.zipIdxLE_total fun a b => ?_) _
    · simp only [le, decide_eq_true_iff]
      exact Int.le_trans
    · simp only [le, Bool.or_eq_true, decide_eq_true_iff]
      exact Int.le_total _ _
  have apart : labelled.Pairwise fun p q => p.2 ≠ q.2 :=
    List.pairwise_map.mp (order_perm.nodup_iff.mpr List.nodup_range)
  refine ⟨labelled.map (·.2), order_perm, List.pairwise_map.mpr ?_, ?_⟩
  · refine (sorted.and apart).imp_of_mem fun {p q} first second both => ?_
    obtain ⟨before, differ⟩ := both
    rw [Precedes, rankAt, rankAt, named p first, named q second]
    simp only [List.zipIdxLE, le, decide_eq_true_iff] at before
    split at before
    · split at before
      · have places := of_decide_eq_true before
        omega
      · omega
    · contradiction
  · rw [← List.mergeSort_zipIdx, List.map_map]
    exact List.map_congr_left fun p member => (named p member).symm

/-- The ranking begins with the fittest individual. -/
theorem head?_ranking {population : List Individual} (nonempty : population ≠ []) {order : List Nat}
    (perm : order.Perm (List.range population.length))
    (ranked : order.Pairwise (Precedes population)) :
    order.head? = some (bestIndex population) := by
  obtain ⟨inside, precedes⟩ := bestIndex_precedes nonempty
  have listed : bestIndex population ∈ order := perm.mem_iff.mpr (List.mem_range.mpr inside)
  cases order with
  | nil => contradiction
  | cons first rest =>
    by_cases same : first = bestIndex population
    · rw [List.head?_cons, same]
    · have later : bestIndex population ∈ rest :=
        (List.mem_cons.mp listed).resolve_left (Ne.symm same)
      have before := List.rel_of_pairwise_cons ranked later
      have among := List.mem_range.mp (perm.mem_iff.mp List.mem_cons_self)
      exact absurd (precedes first among same) before.asymm

/-- The pool has the programs of as many different individuals as it asks for, or of all. They stand
in the order in which they rank, none that is left out ranks below them, and the first program and
the swarm size are those of the fittest individual. -/
theorem assembleEnsemble_pools_fittest {population : List Individual} (nonempty : population ≠ [])
    {size : Nat} (positive : 1 ≤ size) :
    ∃ pooled left : List Nat,
      (pooled ++ left).Perm (List.range population.length) ∧
      pooled.length = min size population.length ∧
      pooled.Pairwise (Precedes population) ∧
      (∀ i ∈ pooled, ∀ k ∈ left, rankAt population i ≤ rankAt population k) ∧
      assembleEnsemble population size =
        { genotype := .ensemble (pooled.map fun i => (pick population i).program)
          swarmSize := (pick population (bestIndex population)).swarmSize } ∧
      pooled.head? = some (bestIndex population) ∧
      (assembleEnsemble population size).program =
        (pick population (bestIndex population)).program := by
  obtain ⟨order, perm, ranked, sorted⟩ := exists_ranking population
  have first := head?_ranking nonempty perm ranked
  have whole : order.take size ++ order.drop size = order := List.take_append_drop size order
  obtain ⟨among, -, apart⟩ := List.pairwise_append.mp (whole.symm ▸ ranked)
  have head : (order.take size).head? = some (bestIndex population) := by
    rw [List.head?_take, if_neg (by omega), first]
  have assembled : assembleEnsemble population size =
      { genotype := .ensemble ((order.take size).map fun i => (pick population i).program)
        swarmSize := (pick population (bestIndex population)).swarmSize } := by
    rw [assembleEnsemble, sorted, ← List.map_take, List.map_map, List.head?_map, first]
    rfl
  refine ⟨order.take size, order.drop size, whole.symm ▸ perm, ?_, among,
    fun i pooled k left => (apart i pooled k left).rank_le, assembled, head, ?_⟩
  · rw [List.length_take, perm.length_eq, List.length_range]
  · rw [assembled, Individual.program]
    dsimp only
    rw [List.headD_eq_head?_getD, List.head?_map, head]
    rfl

/-- An individual with a number for a program, of which nothing else is known but the fitness. -/
def numbered (n : Int32) (fitness : Option UInt32) : Individual :=
  { Individual.ofProgram ⟨[.atom (.integer n)]⟩ with fitness := fitness.map Fitness.mk }

/-- No number, no fitness, zero, and twice the zero with a sign, which comes first. -/
def motley : List Individual :=
  [numbered 0 (some 0x7fc00000), numbered 1 none, numbered 2 (some 0), numbered 3 (some 0x80000000),
    numbered 4 (some 0x80000000)]

theorem motley_pools_fittest :
    motley ≠ [] ∧ 1 ≤ 3 ∧ ∃ pooled left : List Nat,
      (pooled ++ left).Perm (List.range 5) ∧ pooled.length = 3 ∧
      pooled.Pairwise (Precedes motley) ∧
      (∀ i ∈ pooled, ∀ k ∈ left, rankAt motley i ≤ rankAt motley k) ∧
      assembleEnsemble motley 3 =
        { genotype := .ensemble (pooled.map fun i => (pick motley i).program) } ∧
      pooled.head? = some 3 ∧
      (assembleEnsemble motley 3).program = ⟨[.atom (.integer 3)]⟩ := by
  have nonempty : motley ≠ [] := by simp [motley]
  have fittest : bestIndex motley = 3 := by decide
  have pools := assembleEnsemble_pools_fittest nonempty (by decide : 1 ≤ 3)
  rw [fittest] at pools
  exact ⟨nonempty, by decide, pools⟩

end SwarmEvolution
