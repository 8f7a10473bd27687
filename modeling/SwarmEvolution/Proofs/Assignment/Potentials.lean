import Mathlib.Algebra.Order.AddGroupWithTop
import Mathlib.Algebra.Order.Ring.Rat
import Mathlib.Data.Set.Function
import Mathlib.Logic.Equiv.Set
import Mathlib.Order.Interval.Set.Basic
import Mathlib.Tactic.Linarith
import Mathlib.Tactic.Ring
import SwarmEvolution.Proofs.Assignment.Paths

/-! Potentials of an assignment in exact arithmetic. No column costs a placed row less than their
potentials, and none that it owns costs it more; a search keeps both while it moves the potentials,
until it reaches a free column along a path on which nothing costs more either. -/
namespace SwarmEvolution

/-- Rational costs, below one more value. -/
instance Cost.exact : Cost (WithTop ℚ) where
  zero := 0
  infinity := ⊤
  decLt := inferInstance

instance : Cost.Ordered (WithTop ℚ) where
  lt_irrefl := lt_irrefl (α := WithTop ℚ)
  lt_trans := lt_trans (α := WithTop ℚ)
  not_infinity_lt _ := not_top_lt
  infinity_sub _ := WithTop.LinearOrderedAddCommGroup.top_sub _

namespace Assignment

theorem getD_setIfInBounds {α : Type} {xs : Array α} {i : Nat} {v d : α} (inside : i < xs.size) :
    (fun j => (xs.setIfInBounds i v).getD j d) = Function.update (fun j => xs.getD j d) i v := by
  funext j
  by_cases same : j = i
  · subst same
    rw [getD_set_self inside, Function.update_self]
  · rw [getD_set_of_ne (Ne.symm same), Function.update_of_ne same]

section Owners

variable {owner : Nat → Nat} {n rows hole before : Nat} {columns : Set Nat}

/-- Each of the first rows owns one of the columns; no other row owns any. -/
def Owns (owner : Nat → Nat) (columns : Set Nat) (rows : Nat) : Prop :=
  Set.BijOn owner {j ∈ columns | owner j ≠ 0} (Set.Icc 1 rows)

theorem Owns.le (owns : Owns owner columns rows) {j : Nat} (member : j ∈ columns) :
    owner j ≤ rows := by
  by_cases free : owner j = 0
  · omega
  · exact (owns.mapsTo ⟨member, free⟩).2

theorem Owns.inj (owns : Owns owner columns rows) {j k : Nat} (first : j ∈ columns)
    (second : k ∈ columns) (taken : owner j ≠ 0) (same : owner j = owner k) : j = k :=
  owns.injOn ⟨first, taken⟩ ⟨second, same ▸ taken⟩ same

/-- The next row begins at column zero. -/
theorem Owns.begin (owns : Owns owner (Set.Icc 1 n) rows) :
    Owns (Function.update owner 0 (rows + 1)) (Set.Iic n) (rows + 1) := by
  have others : Set.BijOn (Function.update owner 0 (rows + 1))
      {j ∈ Set.Icc 1 n | owner j ≠ 0} (Set.Icc 1 rows) :=
    owns.congr fun j member => by
      rw [Function.update_of_ne (Nat.ne_of_gt member.1.1)]
  have with_first := others.insert (a := 0) (by simp)
  have columns : {j ∈ Set.Iic n | Function.update owner 0 (rows + 1) j ≠ 0} =
      insert 0 {j ∈ Set.Icc 1 n | owner j ≠ 0} := by
    ext j
    rcases Nat.eq_zero_or_pos j with rfl | positive
    · simp
    · simp [Nat.ne_of_gt positive, Nat.one_le_iff_ne_zero]
  have all : Set.Icc 1 (rows + 1) = insert (rows + 1) (Set.Icc 1 rows) := by
    ext i
    simp only [Set.mem_Icc, Set.mem_insert_iff]
    omega
  rw [Owns, columns, all]
  simpa using with_first

/-- A free column may be left out. -/
theorem Owns.free (owns : Owns owner (Set.Iic n) rows) (free : owner hole = 0) :
    Owns owner (Set.Iic n \ {hole}) rows := by
  have same : {j ∈ Set.Iic n \ {hole} | owner j ≠ 0} = {j ∈ Set.Iic n | owner j ≠ 0} := by
    ext j
    constructor
    · rintro ⟨⟨inside, -⟩, taken⟩
      exact ⟨inside, taken⟩
    · rintro ⟨inside, taken⟩
      exact ⟨⟨inside, fun same => taken (same ▸ free)⟩, taken⟩
  rw [Owns, same]
  exact owns

/-- The row of a column passes to the one that is left out, which it takes the place of. -/
theorem Owns.pass (owns : Owns owner (Set.Iic n \ {hole}) rows) (inside : hole ≤ n)
    (within : before ≤ n) (apart : before ≠ hole) :
    Owns (Function.update owner hole (owner before)) (Set.Iic n \ {before}) rows := by
  have given (j : Nat) (other : j ≠ before) :
      Function.update owner hole (owner before) j = owner (Equiv.swap hole before j) := by
    by_cases here : j = hole
    · rw [here, Function.update_self, Equiv.swap_apply_left]
    · rw [Function.update_of_ne here, Equiv.swap_apply_of_ne_of_ne here other]
  -- Exchanging the two columns turns the new owners into the old ones.
  have exchanged : Set.BijOn (Equiv.swap hole before)
      {j ∈ Set.Iic n \ {before} | Function.update owner hole (owner before) j ≠ 0}
      {j ∈ Set.Iic n \ {hole} | owner j ≠ 0} := by
    refine Equiv.bijOn _ fun j => ?_
    by_cases other : j = before
    · simp [other]
    · by_cases here : j = hole
      · simp [here, inside, within, apart, Ne.symm apart]
      · simp [here, other, Equiv.swap_apply_of_ne_of_ne]
  exact (owns.comp exchanged).congr fun j member => (given j member.1.2).symm

end Owners

/-- How much a column costs a row beyond their potentials. -/
def slack (cost : Nat → Nat → ℚ) (a b : Nat → ℚ) (i j : Nat) : ℚ :=
  cost (i - 1) (j - 1) - a i - b j

/-- The potentials of some places are raised. -/
def raised (f : Nat → ℚ) (places : List Nat) (d : ℚ) (i : Nat) : ℚ :=
  if i ∈ places then f i + d else f i

theorem slack_raised (cost : Nat → Nat → ℚ) (a b : Nat → ℚ) (rows columns : List Nat) (d : ℚ)
    (i j : Nat) :
    slack cost (raised a rows d) (raised b columns (-d)) i j =
      slack cost a b i j - (if i ∈ rows then d else 0) + if j ∈ columns then d else 0 := by
  unfold slack raised
  split_ifs <;> ring

section Moving

variable {cost : Nat → Nat → ℚ} {a b : Nat → ℚ} {rows columns : List Nat} {d : ℚ} {i j : Nat}

/-- Between a row and a column that are both raised, or neither, nothing changes. -/
theorem slack_raised_even (same : i ∈ rows ↔ j ∈ columns) :
    slack cost (raised a rows d) (raised b columns (-d)) i j = slack cost a b i j := by
  rw [slack_raised]
  simp only [same, sub_add_cancel]

theorem slack_raised_row (row : i ∈ rows) (column : j ∉ columns) :
    slack cost (raised a rows d) (raised b columns (-d)) i j = slack cost a b i j - d := by
  rw [slack_raised, if_pos row, if_neg column, add_zero]

theorem le_slack_raised (nonneg : j ∈ columns → 0 ≤ d) (row : i ∉ rows) :
    slack cost a b i j ≤ slack cost (raised a rows d) (raised b columns (-d)) i j := by
  rw [slack_raised, if_neg row, sub_zero]
  split_ifs with column
  · exact le_add_of_nonneg_right (nonneg column)
  · exact le_add_of_nonneg_right le_rfl

end Moving

theorem coe_raised (f : Nat → ℚ) (places : List Nat) (d : ℚ) (i : Nat) :
    (raised f places d i : WithTop ℚ) = if i ∈ places then (f i : WithTop ℚ) + d else f i := by
  unfold raised
  split_ifs
  · exact WithTop.coe_add ..
  · rfl

/-- The potentials of a state are these rational numbers. -/
structure State.Potentials (n : Nat) (s : State (WithTop ℚ)) (a b : Nat → ℚ) : Prop where
  row : ∀ i ≤ n, s.rowPotential.getD i Cost.zero = a i
  column : ∀ j ≤ n, s.columnPotential.getD j Cost.zero = b j
  size_row : s.rowPotential.size = n + 1
  size_column : s.columnPotential.size = n + 1

section Raising

variable {κ : Type} [Cost κ] {s : Search κ} {trail : List Nat} {n : Nat} {delta d : κ}

/-- Raises the potential of the row that owns a column, if the column is reached. -/
def Search.raiseRow (s : Search κ) (delta : κ) (potentials : Array κ) (column : Nat) : Array κ :=
  if s.isReached column then potentials.modify (s.ownerOf column) (· + delta) else potentials

theorem raiseRows_eq : raiseRows n delta s =
    (List.range (n + 1)).foldl (s.raiseRow delta) s.rowPotential := rfl

theorem size_foldl_raiseRow (m : Nat) :
    ((List.range m).foldl (s.raiseRow delta) s.rowPotential).size = s.rowPotential.size := by
  refine size_foldl (fun potentials column => ?_) _ _
  rw [Search.raiseRow]
  split
  · exact Array.size_modify
  · rfl

/-- Every row that owns a reached column is raised once. -/
theorem getD_foldl_raiseRow (reached : ∀ j, s.isReached j = true ↔ j ∈ trail)
    (inside : ∀ j ∈ trail, s.ownerOf j < s.rowPotential.size)
    (apart : ∀ j ∈ trail, ∀ k ∈ trail, s.ownerOf j = s.ownerOf k → j = k) (i m : Nat) :
    ((List.range m).foldl (s.raiseRow delta) s.rowPotential).getD i d =
      if ∃ k < m, k ∈ trail ∧ s.ownerOf k = i then s.rowPotential.getD i d + delta
      else s.rowPotential.getD i d := by
  induction m with
  | zero => simp
  | succ m ih =>
    rw [foldl_range_succ, Search.raiseRow]
    simp only [Nat.exists_lt_succ_right]
    split
    case isTrue here =>
      have member := (reached m).mp here
      rw [getD_modify (Nat.lt_of_lt_of_eq (inside m member) (size_foldl_raiseRow m).symm), ih]
      by_cases own : s.ownerOf m = i
      · have new : ¬ ∃ k < m, k ∈ trail ∧ s.ownerOf k = i := by
          rintro ⟨k, before, among, same⟩
          exact Nat.ne_of_lt before (apart k among m member (same.trans own.symm))
        rw [if_pos own, if_neg new, if_pos (.inr ⟨member, own⟩)]
      · simp only [own, if_false, and_false, or_false]
    case isFalse unreached =>
      have new : m ∉ trail := fun member => unreached ((reached m).mpr member)
      simp only [ih, new, false_and, or_false]

theorem getD_raiseRows (reached : ∀ j, s.isReached j = true ↔ j ∈ trail)
    (below : ∀ j ∈ trail, j ≤ n) (inside : ∀ j ∈ trail, s.ownerOf j < s.rowPotential.size)
    (apart : ∀ j ∈ trail, ∀ k ∈ trail, s.ownerOf j = s.ownerOf k → j = k) (i : Nat) :
    (raiseRows n delta s).getD i d =
      if i ∈ trail.map s.ownerOf then s.rowPotential.getD i d + delta
      else s.rowPotential.getD i d := by
  have all : (∃ k < n + 1, k ∈ trail ∧ s.ownerOf k = i) ↔ i ∈ trail.map s.ownerOf := by
    rw [List.mem_map]
    exact exists_congr fun k =>
      ⟨And.right, fun owned => ⟨Nat.lt_succ_of_le (below k owned.1), owned⟩⟩
  rw [raiseRows_eq, getD_foldl_raiseRow reached inside apart]
  simp only [all]

/-- The rows that own the reached columns pay more, their columns less. -/
theorem State.Potentials.shift {s : Search (WithTop ℚ)} {a b : Nat → ℚ} {d : ℚ}
    (potentials : s.toState.Potentials n a b) (reached : ∀ j, s.isReached j = true ↔ j ∈ trail)
    (below : ∀ j ∈ trail, j ≤ n) (inside : ∀ j ∈ trail, s.ownerOf j ≤ n)
    (apart : ∀ j ∈ trail, ∀ k ∈ trail, s.ownerOf j = s.ownerOf k → j = k) :
    (shift n (d : WithTop ℚ) s).toState.Potentials n (raised a (trail.map s.ownerOf) d)
      (raised b trail (-d)) := by
  constructor
  · intro i within
    have rows : ∀ j ∈ trail, s.ownerOf j < s.rowPotential.size := fun j member =>
      potentials.size_row ▸ Nat.lt_succ_of_le (inside j member)
    change (raiseRows n (d : WithTop ℚ) s).getD i Cost.zero = _
    rw [getD_raiseRows reached below rows apart, potentials.row i within, coe_raised]
  · intro j within
    change (s.columnPotential.mapIdx fun column v =>
      if s.isReached column then v - (d : WithTop ℚ) else v).getD j Cost.zero = _
    rw [getD_mapIdx (potentials.size_column ▸ Nat.lt_succ_of_le within),
      potentials.column j within, coe_raised]
    simp only [reached]
    split_ifs
    · rw [← WithTop.LinearOrderedAddCommGroup.coe_sub, sub_eq_add_neg, WithTop.coe_add]
    · rfl
  · exact (size_foldl_raiseRow (n + 1)).trans potentials.size_row
  · exact Array.size_mapIdx.trans potentials.size_column

end Raising

end Assignment
end SwarmEvolution
