import SwarmEvolution.Proofs.Assignment.Potentials

/-! Searches under potentials. No column costs a placed row less than their potentials, and none
that it owns costs it more; every turn of a search keeps both. In the end the search is at a free
column, and nothing on the path to it costs more than the potentials either. -/
namespace SwarmEvolution.Assignment

variable (cost : Nat → Nat → ℚ)

/-- The same costs, among values that a search begins above. -/
def lifted (i j : Nat) : WithTop ℚ := cost i j

/-- A search under potentials. `trail` lists the columns that are reached for good. -/
structure Search.Balanced (n rows : Nat) (s : Search (WithTop ℚ)) (trail : List Nat)
    (a b : Nat → ℚ) : Prop extends s.Reaches n trail, s.toState.Potentials n a b where
  size_owner : s.owner.size = n + 1
  owns : Owns s.ownerOf (Set.Iic n) rows
  newest : s.ownerOf 0 = rows
  few : rows ≤ n
  /-- The newest row has no potential before the first turn. -/
  feasible : ∀ i j, 0 < i → i ≤ rows → (i = rows → trail ≠ []) → 0 < j → j ≤ n →
    0 ≤ slack cost a b i j
  tight : ∀ j, 0 < j → j ≤ n → s.ownerOf j ≠ 0 → slack cost a b (s.ownerOf j) j = 0
  path : ∀ j ∈ s.column :: trail, j ≠ 0 → slack cost a b (s.ownerOf (s.wayFrom j)) j = 0
  least_le : ∀ j, 0 < j → j ≤ n → j ∉ trail → ∀ k ∈ trail,
    s.leastTo j ≤ slack cost a b (s.ownerOf k) j
  least_eq : ∀ j, 0 < j → j ≤ n → j ∉ trail → s.leastTo j ≠ Cost.infinity →
    s.leastTo j = slack cost a b (s.ownerOf (s.wayFrom j)) j

/-- The least slack between a row that owns a reached column and an unreached column. -/
structure Search.LeastSlack (n : Nat) (s : Search (WithTop ℚ)) (trail : List Nat)
    (a b : Nat → ℚ) (d : ℚ) : Prop where
  found : (scan (lifted cost) n s.marked).column ≠ 0
  price : (scan (lifted cost) n s.marked).cost = d
  minimal : ∀ j, 0 < j → j ≤ n → j ∉ s.column :: trail → ∀ k ∈ s.column :: trail,
    d ≤ slack cost a b (s.ownerOf k) j
  attained : slack cost a b (s.ownerOf ((s.looked (lifted cost) n).wayFrom
    (scan (lifted cost) n s.marked).column)) (scan (lifted cost) n s.marked).column = d
  nonneg : trail ≠ [] → 0 ≤ d

namespace Search.Balanced

variable {cost} {n rows : Nat} {s : Search (WithTop ℚ)} {trail : List Nat} {a b : Nat → ℚ}
  {d : ℚ} (balanced : s.Balanced cost n rows trail a b) {j k : Nat}

include balanced

theorem ownerOf_le (inside : j ≤ n) : s.ownerOf j ≤ rows := balanced.owns.le inside

theorem ownerOf_column_le : s.ownerOf s.column ≤ rows :=
  balanced.ownerOf_le (balanced.inside _ List.mem_cons_self)

theorem reduced_marked (inside : j ≤ n) :
    s.marked.reduced (lifted cost) j = slack cost a b (s.ownerOf s.column) j := by
  have row := balanced.row _ (balanced.ownerOf_column_le.trans balanced.few)
  have column := balanced.column j inside
  change lifted cost (s.ownerOf s.column - 1) (j - 1)
    - s.rowPotential.getD (s.ownerOf s.column) Cost.zero
    - s.columnPotential.getD j Cost.zero = _
  rw [row, column, lifted, slack]
  rfl

/-- After a look no unreached column is taken to cost more than from any reached one. -/
theorem looked_le (positive : 0 < j) (inside : j ≤ n) (new : j ∉ s.column :: trail)
    (member : k ∈ s.column :: trail) :
    (s.looked (lifted cost) n).leastTo j ≤ slack cost a b (s.ownerOf k) j := by
  obtain ⟨noted, -⟩ := balanced.scanned (lifted cost)
  have unseen : j ∉ trail := fun old => new (.tail _ old)
  by_cases nearer : s.marked.Nearer (lifted cost) j
  · have least : (s.looked (lifted cost) n).leastTo j = s.marked.reduced (lifted cost) j :=
      (noted.nearer j positive inside nearer).1
    have lower : s.marked.reduced (lifted cost) j < s.leastTo j := nearer.2
    rw [least]
    rcases List.mem_cons.mp member with rfl | before
    · exact (balanced.reduced_marked inside).le
    · exact lower.le.trans (balanced.least_le j positive inside unseen k before)
  · have least : (s.looked (lifted cost) n).leastTo j = s.leastTo j :=
      (noted.kept j fun _ _ => nearer).1
    have higher : s.leastTo j ≤ s.marked.reduced (lifted cost) j :=
      not_lt.mp fun lower => nearer ⟨balanced.not_isReached_marked new, lower⟩
    rw [least]
    rcases List.mem_cons.mp member with rfl | before
    · exact higher.trans (balanced.reduced_marked inside).le
    · exact balanced.least_le j positive inside unseen k before

theorem looked_eq (positive : 0 < j) (inside : j ≤ n) (new : j ∉ s.column :: trail)
    (priced : (s.looked (lifted cost) n).leastTo j ≠ Cost.infinity) :
    (s.looked (lifted cost) n).leastTo j =
      slack cost a b (s.ownerOf ((s.looked (lifted cost) n).wayFrom j)) j := by
  obtain ⟨noted, -⟩ := balanced.scanned (lifted cost)
  by_cases nearer : s.marked.Nearer (lifted cost) j
  · obtain ⟨least, way⟩ := noted.nearer j positive inside nearer
    have least : (s.looked (lifted cost) n).leastTo j = s.marked.reduced (lifted cost) j := least
    have way : (s.looked (lifted cost) n).wayFrom j = s.column := way
    rw [least, way]
    exact balanced.reduced_marked inside
  · obtain ⟨least, way⟩ := noted.kept j fun _ _ => nearer
    have least : (s.looked (lifted cost) n).leastTo j = s.leastTo j := least
    have way : (s.looked (lifted cost) n).wayFrom j = s.wayFrom j := way
    rw [least] at priced
    rw [least, way]
    exact balanced.least_eq j positive inside (fun old => new (.tail _ old)) priced

theorem feasible_advanced (least : s.LeastSlack cost n trail a b d) {i : Nat} (first : 0 < i)
    (placed : i ≤ rows) (positive : 0 < j) (inside : j ≤ n) :
    0 ≤ slack cost (raised a ((s.column :: trail).map s.ownerOf) d)
      (raised b (s.column :: trail) (-d)) i j := by
  have moved (old : j ∈ s.column :: trail) : trail ≠ [] :=
    balanced.leads.ne_nil old (Nat.ne_of_gt positive)
  -- Only rows that own a reached column pay, so the slacks that get less are those of unreached
  -- columns for them, and the least of these is what they pay.
  by_cases paid : i ∈ (s.column :: trail).map s.ownerOf
  · obtain ⟨k, member, rfl⟩ := List.mem_map.mp paid
    by_cases old : j ∈ s.column :: trail
    · rw [slack_raised_even (iff_of_true paid old)]
      exact balanced.feasible _ j first placed (fun _ => moved old) positive inside
    · rw [slack_raised_row paid old]
      exact sub_nonneg.mpr (least.minimal j positive inside old k member)
  · have older : i ≠ rows := by
      rintro rfl
      exact paid (balanced.newest ▸ List.mem_map_of_mem balanced.leads.zero_mem)
    calc 0 ≤ slack cost a b i j :=
          balanced.feasible i j first placed (absurd · older) positive inside
      _ ≤ _ := le_slack_raised (fun old => least.nonneg (moved old)) paid

/-- What is left of the cost of a column that is not reached yet. -/
theorem exists_leastTo (least : s.LeastSlack cost n trail a b d) (positive : 0 < j)
    (inside : j ≤ n) (new : j ∉ s.column :: trail) :
    ∃ x : ℚ, (s.looked (lifted cost) n).leastTo j = x ∧
      (s.advanced (lifted cost) n).leastTo j = (x - d : ℚ) := by
  have low := balanced.looked_le positive inside new List.mem_cons_self
  obtain ⟨x, known⟩ := WithTop.ne_top_iff_exists.mp (low.trans_lt (WithTop.coe_lt_top _)).ne
  refine ⟨x, known.symm, ?_⟩
  rw [balanced.leastTo_advanced inside new, least.price, ← known]
  rfl

variable (owner : s.ownerOf s.column ≠ 0)

include owner

theorem taken (member : j ∈ s.column :: trail) : s.ownerOf j ≠ 0 := by
  rcases List.mem_cons.mp member with rfl | before
  · exact owner
  · exact balanced.owned j before

/-- Two reached columns have two owners. -/
theorem apart (first : j ∈ s.column :: trail) (inside : k ≤ n)
    (same : s.ownerOf j = s.ownerOf k) : j = k :=
  balanced.owns.inj (balanced.inside j first) inside (balanced.taken owner first) same

/-- There are more columns than rows, so one is not reached yet. -/
theorem exists_unreached : ∃ j, 0 < j ∧ j ≤ n ∧ j ∉ s.column :: trail := by
  -- Otherwise all `n + 1` columns would be reached, and every one of them has a row of its own.
  by_contra! none
  have all : List.range (n + 1) ⊆ s.column :: trail := by
    intro j member
    rcases Nat.eq_zero_or_pos j with rfl | positive
    · exact balanced.leads.zero_mem
    · exact none j positive (Nat.le_of_lt_succ (List.mem_range.mp member))
  have columns := (List.subperm_of_subset List.nodup_range all).length_le
  have distinct : ((s.column :: trail).map s.ownerOf).Nodup :=
    balanced.leads.nodup.map_on fun j first k second same =>
      balanced.apart owner first (balanced.inside k second) same
  have owners : (s.column :: trail).map s.ownerOf ⊆ List.range' 1 rows := by
    intro i member
    obtain ⟨j, reached, rfl⟩ := List.mem_map.mp member
    have taken := balanced.taken owner reached
    have below := balanced.ownerOf_le (balanced.inside j reached)
    exact List.mem_range'_1.mpr ⟨Nat.pos_of_ne_zero taken, by omega⟩
  have rows_used := (List.subperm_of_subset distinct owners).length_le
  have few := balanced.few
  rw [List.length_range] at columns
  rw [List.length_map, List.length_range'] at rows_used
  omega

/-- A look finds a column while one is unreached, and moves the potentials by what it costs. -/
theorem exists_least : ∃ d, s.LeastSlack cost n trail a b d := by
  obtain ⟨-, chosen⟩ := balanced.scanned (lifted cost)
  have cheapest (j : Nat) (positive : 0 < j) (inside : j ≤ n) (new : j ∉ s.column :: trail) :
      (scan (lifted cost) n s.marked).cost ≤ (s.looked (lifted cost) n).leastTo j :=
    not_lt.mp (chosen.cheapest j positive inside (balanced.not_isReached_marked new))
  have found : (scan (lifted cost) n s.marked).column ≠ 0 := by
    intro none
    obtain ⟨j, positive, inside, new⟩ := balanced.exists_unreached owner
    have low := (cheapest j positive inside new).trans
      (balanced.looked_le positive inside new List.mem_cons_self)
    rw [chosen.none none] at low
    exact (WithTop.coe_lt_top _).not_ge low
  obtain ⟨covered, -, price, dearer, below⟩ := chosen.some found
  obtain ⟨d, finite⟩ := WithTop.ne_top_iff_exists.mp below.ne_top
  have positive := Nat.pos_of_ne_zero found
  have new := balanced.chosen_new found
  have least : (s.looked (lifted cost) n).leastTo (scan (lifted cost) n s.marked).column = d :=
    price.symm.trans finite.symm
  have priced := least.trans_ne WithTop.coe_ne_top
  have attained := balanced.looked_eq positive covered new priced
  rw [least, WithTop.coe_inj] at attained
  refine ⟨d, found, finite.symm, fun j positive inside new k member => ?_, attained.symm,
    fun moved => ?_⟩
  · have low := (cheapest j positive inside new).trans
      (balanced.looked_le positive inside new member)
    rwa [← finite, WithTop.coe_le_coe] at low
  · have way := balanced.wayFrom_looked_mem positive covered new priced
    rw [attained]
    exact balanced.feasible _ _ (Nat.pos_of_ne_zero (balanced.taken owner way))
      (balanced.ownerOf_le (balanced.inside _ way)) (fun _ => moved) positive covered

/-- A row owns a reached column just if the column that it owns is a reached one. -/
theorem owned_iff (inside : j ≤ n) :
    s.ownerOf j ∈ (s.column :: trail).map s.ownerOf ↔ j ∈ s.column :: trail := by
  refine ⟨fun member => ?_, List.mem_map_of_mem⟩
  obtain ⟨k, among, same⟩ := List.mem_map.mp member
  exact balanced.apart owner among inside same ▸ among

variable (least : s.LeastSlack cost n trail a b d)

include least

theorem potentials_advanced :
    (s.advanced (lifted cost) n).toState.Potentials n
      (raised a ((s.column :: trail).map s.ownerOf) d) (raised b (s.column :: trail) (-d)) := by
  have before : (s.looked (lifted cost) n).toState.Potentials n a b :=
    ⟨balanced.row, balanced.column, balanced.size_row, balanced.size_column⟩
  rw [Search.advanced, least.price]
  exact before.shift balanced.isReached_marked balanced.inside
    (fun j member => (balanced.ownerOf_le (balanced.inside j member)).trans balanced.few)
    (fun j first k second => balanced.apart owner first (balanced.inside k second))

theorem path_advanced (member : j ∈ (s.advanced (lifted cost) n).column :: s.column :: trail)
    (positive : j ≠ 0) :
    slack cost (raised a ((s.column :: trail).map s.ownerOf) d) (raised b (s.column :: trail) (-d))
      (s.ownerOf ((s.advanced (lifted cost) n).wayFrom j)) j = 0 := by
  -- The column that is reached now is the last unreached one on its path; the slacks between
  -- reached ones stay.
  rcases List.mem_cons.mp member with rfl | old
  · have way := (balanced.toReaches.advanced owner least.found).leads.way_mem positive
    exact (slack_raised_row (List.mem_map_of_mem way) (balanced.chosen_new least.found)).trans
      (sub_eq_zero.mpr least.attained)
  · have same : (s.advanced (lifted cost) n).wayFrom j = s.wayFrom j :=
      balanced.wayFrom_looked old
    have way := balanced.leads.way_mem_of_mem old positive
    rw [same, slack_raised_even (iff_of_true (List.mem_map_of_mem way) old)]
    exact balanced.path j old positive

/-- One turn of a search: the rows that own the reached columns pay more, their columns less. -/
theorem advanced :
    (s.advanced (lifted cost) n).Balanced cost n rows (s.column :: trail)
      (raised a ((s.column :: trail).map s.ownerOf) d) (raised b (s.column :: trail) (-d)) := by
  refine ⟨balanced.toReaches.advanced owner least.found, balanced.potentials_advanced owner least,
    balanced.size_owner, balanced.owns, balanced.newest, balanced.few,
    fun i j first placed _ => balanced.feasible_advanced least first placed, ?_,
    fun j => balanced.path_advanced owner least, ?_, ?_⟩
  · intro j positive inside taken
    exact (slack_raised_even (balanced.owned_iff owner inside)).trans
      (balanced.tight j positive inside taken)
  · intro j positive inside new k member
    obtain ⟨x, known, left⟩ := balanced.exists_leastTo least positive inside new
    have low := balanced.looked_le positive inside new member
    rw [known, WithTop.coe_le_coe] at low
    change _ ≤ ((slack cost _ _ (s.ownerOf k) j : ℚ) : WithTop ℚ)
    rw [left, slack_raised_row (List.mem_map_of_mem member) new, WithTop.coe_le_coe]
    exact sub_le_sub_right low d
  · intro j positive inside new _
    obtain ⟨x, known, left⟩ := balanced.exists_leastTo least positive inside new
    have priced := known.trans_ne WithTop.coe_ne_top
    have equal := balanced.looked_eq positive inside new priced
    have way := balanced.wayFrom_looked_mem positive inside new priced
    rw [known, WithTop.coe_inj] at equal
    change _ = ((slack cost _ _ (s.ownerOf ((s.looked (lifted cost) n).wayFrom j)) j : ℚ) :
      WithTop ℚ)
    rw [left, slack_raised_row (List.mem_map_of_mem way) new, equal]

omit owner least in
/-- A search with turns enough ends at a free column. -/
theorem run {turns : Nat} (owner : s.ownerOf s.column ≠ 0) (enough : n < trail.length + turns) :
    ∃ trail a b, (search (lifted cost) n turns s).Balanced cost n rows trail a b ∧
      (search (lifted cost) n turns s).ownerOf (search (lifted cost) n turns s).column = 0 := by
  -- Every turn makes the trail longer, and it never has more than the `n + 1` columns.
  induction turns generalizing s trail a b with
  | zero =>
    have short := balanced.leads.length_le balanced.inside
    rw [List.length_cons] at short
    omega
  | succ turns ih =>
    obtain ⟨d, least⟩ := balanced.exists_least owner
    have moved := balanced.advanced owner least
    rw [search_succ, if_neg least.found]
    split
    case isTrue free => exact ⟨_, _, _, moved, free⟩
    case isFalse taken =>
      refine ih moved taken ?_
      rw [List.length_cons]
      omega

end Search.Balanced
end SwarmEvolution.Assignment
