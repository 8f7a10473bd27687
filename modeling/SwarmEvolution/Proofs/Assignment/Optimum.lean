import Mathlib.Algebra.BigOperators.Group.Finset.Basic
import Mathlib.Algebra.Order.BigOperators.Group.Finset
import Mathlib.Data.Fintype.EquivFin
import SwarmEvolution.Proofs.Assignment.Balance

/-! Assignments at the least total cost. When a search has ended, the rows move along its path, and
the potentials stay tight on every column that is owned. Once every row owns a column, the total of
the potentials is what the assignment costs, and no other assignment costs less than that. -/
namespace SwarmEvolution.Assignment

variable (cost : Nat → Nat → ℚ) (n rows : Nat)

/-- What is known when the first rows are placed. -/
structure State.Placed (s : State (WithTop ℚ)) (a b : Nat → ℚ) : Prop
    extends s.Potentials n a b where
  size_owner : s.owner.size = n + 1
  size_way : s.way.size = n + 1
  owns : Owns s.ownerOf (Set.Icc 1 n) rows
  feasible : ∀ i j, 0 < i → i ≤ rows → 0 < j → j ≤ n → 0 ≤ slack cost a b i j
  tight : ∀ j, 0 < j → j ≤ n → s.ownerOf j ≠ 0 → slack cost a b (s.ownerOf j) j = 0

/-- What is known while rows move along a path and `hole` is the column that is next to be taken
over. -/
structure State.Moving (hole : Nat) (path : List Nat) (s : State (WithTop ℚ)) (a b : Nat → ℚ) :
    Prop extends s.Potentials n a b where
  size_owner : s.owner.size = n + 1
  size_way : s.way.size = n + 1
  inside : ∀ j ∈ hole :: path, j ≤ n
  owns : Owns s.ownerOf (Set.Iic n \ {hole}) rows
  tight : ∀ j, 0 < j → j ≤ n → j ≠ hole → s.ownerOf j ≠ 0 → slack cost a b (s.ownerOf j) j = 0
  along : ∀ j ∈ hole :: path, j ≠ 0 → slack cost a b (s.ownerOf (s.wayFrom j)) j = 0

variable {cost n rows} {a b : Nat → ℚ}

section Moving

variable (s : State (WithTop ℚ)) {hole : Nat} {path rest : List Nat}

theorem State.ownerOf_passed (inside : hole < s.owner.size) :
    (s.passed hole).ownerOf = Function.update s.ownerOf hole (s.ownerOf (s.wayFrom hole)) :=
  getD_setIfInBounds inside

variable {s}

theorem State.Moving.passed (moving : s.Moving cost n rows hole path a b)
    (positive : hole ≠ 0) (leads : Trail s.wayFrom (hole :: path))
    (suffix : (s.wayFrom hole :: rest) <:+ path) :
    (s.passed hole).Moving cost n rows (s.wayFrom hole) rest a b := by
  have new : hole ∉ path := leads.not_mem
  have within : hole ≤ n := moving.inside _ List.mem_cons_self
  have before : s.wayFrom hole ≠ hole := by
    intro same
    exact new (same ▸ leads.way_mem positive)
  have owners : (s.passed hole).ownerOf =
      Function.update s.ownerOf hole (s.ownerOf (s.wayFrom hole)) :=
    s.ownerOf_passed (moving.size_owner ▸ Nat.lt_succ_of_le within)
  refine ⟨⟨moving.row, moving.column, moving.size_row, moving.size_column⟩,
    Array.size_setIfInBounds.trans moving.size_owner, moving.size_way,
    fun j member => moving.inside j (.tail _ (suffix.subset member)), ?_, ?_, ?_⟩
  · rw [owners]
    exact moving.owns.pass within (moving.inside _ (.tail _ (leads.way_mem positive))) before
  · intro j first inside other taken
    rw [owners] at taken ⊢
    by_cases given : j = hole
    · subst given
      rw [Function.update_self]
      exact moving.along j List.mem_cons_self positive
    · rw [Function.update_of_ne given] at taken ⊢
      exact moving.tight j first inside given taken
  · intro j member first
    have earlier : s.wayFrom j ≠ hole := fun same =>
      new (same ▸ (leads.tail positive).way_mem_of_mem (suffix.subset member) first)
    change slack cost a b ((s.passed hole).ownerOf (s.wayFrom j)) j = 0
    rw [owners, Function.update_of_ne earlier]
    exact moving.along j (.tail _ (suffix.subset member)) first

/-- Once the rows have moved along the path of a search, each of them owns a column. -/
theorem placed_augment {s : Search (WithTop ℚ)} {trail : List Nat}
    (balanced : s.Balanced cost n rows trail a b) (positive : 0 < rows)
    (free : s.ownerOf s.column = 0) :
    (augment (n + 1) s.column s.toState).Placed cost n rows a b := by
  have later : s.column ≠ 0 := by
    intro zero
    rw [zero, balanced.newest] at free
    omega
  have moving : s.toState.Moving cost n rows s.column trail a b :=
    ⟨balanced.toPotentials, balanced.size_owner, balanced.size_way, balanced.inside,
      balanced.owns.free free, fun j first inside _ => balanced.tight j first inside,
      balanced.path⟩
  have short := balanced.leads.length_le balanced.inside
  have ended := augment_induction (I := fun hole path s => s.Moving cost n rows hole path a b)
    (fun later leads suffix moving => moving.passed later leads suffix) balanced.leads
    (Nat.lt_of_lt_of_le (Nat.lt_succ_self _) short) moving
  have columns : Set.Iic n \ {0} = Set.Icc 1 n := by
    ext j
    simp only [Set.mem_sdiff, Set.mem_Iic, Set.mem_singleton_iff, Set.mem_Icc]
    omega
  refine ⟨ended.toPotentials, ended.size_owner, ended.size_way, columns ▸ ended.owns, ?_,
    fun j first inside => ended.tight j first inside (Nat.ne_of_gt first)⟩
  intro i j first placed above inside
  exact balanced.feasible i j first placed
    (fun _ => balanced.leads.ne_nil List.mem_cons_self later) above inside

end Moving

section Placing

variable {s : State (WithTop ℚ)}

theorem balanced_begin (placed : s.Placed cost n rows a b) (more : rows < n) :
    (Search.begin n s (rows + 1)).Balanced cost n (rows + 1) [] a b := by
  have owners : (Search.begin n s (rows + 1)).ownerOf = Function.update s.ownerOf 0 (rows + 1) :=
    getD_setIfInBounds (placed.size_owner ▸ Nat.succ_pos n)
  refine ⟨Search.reaches_begin placed.size_way,
    ⟨placed.row, placed.column, placed.size_row, placed.size_column⟩,
    Array.size_setIfInBounds.trans placed.size_owner, owners ▸ placed.owns.begin, ?_, more,
    ?_, ?_, ?_, ?_, ?_⟩
  · rw [owners, Function.update_self]
  · intro i j first placed' older above inside
    have other : i ≠ rows + 1 := fun newest => older newest rfl
    exact placed.feasible i j first (by omega) above inside
  · intro j above inside taken
    rw [owners, Function.update_of_ne (Nat.ne_of_gt above)] at taken ⊢
    exact placed.tight j above inside taken
  · exact fun j member later => absurd (List.mem_singleton.mp member) later
  · exact fun j _ _ _ k member => absurd member List.not_mem_nil
  · exact fun j _ _ _ priced => absurd (Search.leastTo_begin j) priced

/-- One more row is placed. -/
theorem exists_placed (placed : s.Placed cost n rows a b) (more : rows < n) :
    ∃ a b, (place (lifted cost) n s (rows + 1)).Placed cost n (rows + 1) a b := by
  have start := balanced_begin placed more
  have owner : (Search.begin n s (rows + 1)).ownerOf (Search.begin n s (rows + 1)).column ≠ 0 :=
    start.newest.trans_ne (Nat.succ_ne_zero rows)
  have enough : n < ([] : List Nat).length + (n + 1) := by
    rw [List.length_nil]
    omega
  obtain ⟨trail, a, b, balanced, free⟩ := start.run owner enough
  rw [place_eq]
  exact ⟨a, b, placed_augment balanced (Nat.succ_pos rows) free⟩

theorem placed_initial : (State.initial n : State (WithTop ℚ)).Placed cost n 0 0 0 := by
  have free (j : Nat) : (State.initial n : State (WithTop ℚ)).ownerOf j = 0 := getD_replicate ..
  refine ⟨⟨fun i _ => getD_replicate .., fun j _ => getD_replicate .., Array.size_replicate,
    Array.size_replicate⟩, Array.size_replicate, Array.size_replicate, ?_, ?_, ?_⟩
  · have none : {j ∈ Set.Icc 1 n | (State.initial n : State (WithTop ℚ)).ownerOf j ≠ 0} = ∅ :=
      Set.sep_eq_empty_iff_mem_false.mpr fun j _ taken => taken (free j)
    rw [Owns, none, Set.Icc_eq_empty (Nat.not_succ_le_zero 0)]
    exact Set.bijOn_empty _
  · exact fun i j first placed => absurd first (by omega)
  · exact fun j _ _ taken => absurd (free j) taken

/-- All rows are placed. -/
theorem exists_placed_solve (cost : Nat → Nat → ℚ) (n : Nat) :
    ∃ a b, (solve (lifted cost) n).Placed cost n n a b := by
  have steps (m : Nat) (few : m ≤ n) : ∃ a b, ((List.range m).foldl
      (fun s k => place (lifted cost) n s (k + 1)) (State.initial n)).Placed cost n m a b := by
    induction m with
    | zero => exact ⟨0, 0, placed_initial⟩
    | succ m ih =>
      obtain ⟨a, b, placed⟩ := ih (by omega)
      rw [foldl_range_succ]
      exact exists_placed placed few
  exact steps n le_rfl

end Placing

section Totals

open Finset

variable {κ : Type} {cost : Nat → Nat → ℚ} {n : Nat} {a b : Nat → ℚ}

/-- When there are as many rows as columns, the rows own the columns one to one. -/
theorem Owns.exists_perm {owner : Nat → Nat} (owns : Owns owner (Set.Icc 1 n) n) :
    ∃ σ : Equiv.Perm (Fin n), ∀ i, owner (σ i + 1) = i + 1 := by
  have owned (i : Fin n) : ∃ k : Fin n, owner (k + 1) = i + 1 := by
    obtain ⟨j, ⟨⟨first, last⟩, -⟩, equal⟩ := owns.surjOn ⟨Nat.le_add_left 1 i, i.isLt⟩
    refine ⟨⟨j - 1, by omega⟩, ?_⟩
    rwa [Nat.sub_add_cancel first]
  choose column owned using owned
  have inj : Function.Injective column := by
    intro i k same
    have equal := (owned i).symm.trans ((congrArg (fun j : Fin n => owner (j + 1)) same).trans
      (owned k))
    exact Fin.ext (Nat.succ_injective equal)
  exact ⟨Equiv.ofBijective column (Finite.injective_iff_bijective.mp inj), owned⟩

theorem columns_of_perm {s : State κ} (owns : Owns s.ownerOf (Set.Icc 1 n) n)
    {σ : Equiv.Perm (Fin n)} (owned : ∀ i, s.ownerOf (σ i + 1) = i + 1) :
    columns n s = List.ofFn fun i => (σ i : Nat) := by
  refine List.ext_getElem?' fun i below => ?_
  rw [length_columns, List.length_ofFn, max_self] at below
  have column := owned ⟨i, below⟩
  rw [List.getElem?_ofFn, dif_pos below]
  refine getElem?_columns below (σ ⟨i, below⟩).isLt column fun l within same => ?_
  exact Nat.succ_injective (owns.inj ⟨Nat.succ_pos l, within⟩
    ⟨Nat.succ_pos _, (σ ⟨i, below⟩).isLt⟩ (same.trans_ne (Nat.succ_ne_zero i))
    (same.trans column.symm))

/-- What every assignment costs at least, and what one costs that is tight everywhere. -/
theorem sum_potentials (σ : Equiv.Perm (Fin n)) :
    ∑ i : Fin n, (a (i + 1) + b (σ i + 1)) = ∑ i : Fin n, a (i + 1) + ∑ j : Fin n, b (j + 1) := by
  rw [sum_add_distrib, Equiv.sum_comp σ fun j : Fin n => b (j + 1)]

theorem sum_le_of_tight {σ : Equiv.Perm (Fin n)}
    (feasible : ∀ i j : Fin n, 0 ≤ slack cost a b (i + 1) (j + 1))
    (tight : ∀ i : Fin n, slack cost a b (i + 1) (σ i + 1) = 0) (τ : Equiv.Perm (Fin n)) :
    ∑ i : Fin n, cost i (σ i) ≤ ∑ i : Fin n, cost i (τ i) :=
  calc ∑ i : Fin n, cost i (σ i)
      = ∑ i : Fin n, (a (i + 1) + b (σ i + 1)) := sum_congr rfl fun i _ => by
        have equal := tight i
        rw [slack, Nat.add_sub_cancel, Nat.add_sub_cancel] at equal
        linarith
    _ = ∑ i : Fin n, (a (i + 1) + b (τ i + 1)) := by rw [sum_potentials, sum_potentials]
    _ ≤ ∑ i : Fin n, cost i (τ i) := sum_le_sum fun i _ => by
        have bound := feasible i (τ i)
        rw [slack, Nat.add_sub_cancel, Nat.add_sub_cancel] at bound
        linarith

/-- In exact arithmetic the rows are assigned to all columns, one to one, and no other assignment
costs less in total. -/
theorem assign_least (cost : Nat → Nat → ℚ) (n : Nat) :
    ∃ σ : Equiv.Perm (Fin n),
      assign (fun i j => (cost i j : WithTop ℚ)) n = List.ofFn (fun i => (σ i : Nat)) ∧
      ∀ τ : Equiv.Perm (Fin n), ∑ i : Fin n, cost i (σ i) ≤ ∑ i : Fin n, cost i (τ i) := by
  obtain ⟨a, b, placed⟩ := exists_placed_solve cost n
  obtain ⟨σ, owned⟩ := placed.owns.exists_perm
  refine ⟨σ, columns_of_perm placed.owns owned, sum_le_of_tight (a := a) (b := b) ?_ ?_⟩
  · intro i j
    exact placed.feasible _ _ (Nat.succ_pos i) i.isLt (Nat.succ_pos j) j.isLt
  · intro i
    have tight := placed.tight (σ i + 1) (Nat.succ_pos _) (σ i).isLt
    rw [owned] at tight
    exact tight (Nat.succ_ne_zero i)

/-- The second row leaves its cheapest column to the first one. -/
example : assign (lifted fun i j => ([[4, 1, 3], [2, 0, 5], [3, 2, 2]].getD i []).getD j 0) 3 =
    [1, 0, 2] := by
  decide +kernel

end Totals
end SwarmEvolution.Assignment
