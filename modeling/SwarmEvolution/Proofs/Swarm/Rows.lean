import Mathlib.Data.List.ProdSigma

/-! Tables in one list, row after row. Rows of one length do not overlap, and an index belongs to
one row and one column. -/
namespace SwarmEvolution.Rows

theorem index_lt {rows columns row column : Nat} (within : row < rows) (below : column < columns) :
    row * columns + column < rows * columns :=
  calc row * columns + column
    _ < (row + 1) * columns := by rw [Nat.succ_mul]; omega
    _ ≤ rows * columns := Nat.mul_le_mul_right columns within

/-- A row ends before the next one begins. -/
theorem apart {columns row row' column : Nat} (other : row ≠ row') (below : column < columns) :
    row' * columns + column < row * columns ∨
      row * columns + columns ≤ row' * columns + column := by
  rcases Nat.lt_or_gt_of_ne other with before | after
  · have ends : (row + 1) * columns ≤ row' * columns := Nat.mul_le_mul_right columns before
    rw [Nat.succ_mul] at ends
    omega
  · exact .inl (Nat.lt_of_lt_of_le (index_lt (Nat.lt_succ_self row') below)
      (Nat.mul_le_mul_right columns after))

theorem index_injective {columns row column row' column' : Nat} (below : column < columns)
    (below' : column' < columns) (same : row * columns + column = row' * columns + column') :
    row = row' ∧ column = column' := by
  by_cases one : row = row'
  · subst one
    exact ⟨rfl, Nat.add_left_cancel same⟩
  · rcases apart one below' with before | after <;> omega

/-- Counting through the table goes row after row. -/
theorem range_mul (rows columns : Nat) : List.range (rows * columns) =
    (List.range rows ×ˢ List.range columns).map fun place => place.1 * columns + place.2 := by
  induction rows with
  | zero => rw [Nat.zero_mul]; rfl
  | succ rows ih =>
    have last : List.range (rows + 1) ×ˢ List.range columns =
        List.range rows ×ˢ List.range columns ++ (List.range columns).map (rows, ·) := by
      rw [List.range_succ]
      simp only [SProd.sprod, List.product, List.flatMap_append, List.flatMap_singleton]
    rw [Nat.succ_mul, List.range_add, ih, last, List.map_append, List.map_map]
    rfl

variable {α β : Type} {f : α → List β} {as : List α} {n : Nat}

theorem length_flatMap (all : ∀ a ∈ as, (f a).length = n) :
    (as.flatMap f).length = as.length * n := by
  rw [List.length_flatMap, List.map_congr_left all, List.map_const', List.sum_replicate_nat]

/-- An element of lists of one length that are put together. -/
theorem getElem?_flatMap (all : ∀ a ∈ as, (f a).length = n) (i : Nat) {j : Nat} (below : j < n) :
    (as.flatMap f)[i * n + j]? = as[i]?.bind fun a => (f a)[j]? := by
  induction as generalizing i with
  | nil => rfl
  | cons a as ih =>
    obtain ⟨length, others⟩ := List.forall_mem_cons.mp all
    rw [List.flatMap_cons]
    cases i with
    | zero =>
      rw [Nat.zero_mul, Nat.zero_add, List.getElem?_append_left (length ▸ below)]
      rfl
    | succ i =>
      have past : (i + 1) * n + j = n + (i * n + j) := by rw [Nat.succ_mul]; omega
      rw [past, ← length, List.getElem?_append_right (Nat.le_add_right _ _),
        Nat.add_sub_cancel_left, length, ih others]
      rfl

end SwarmEvolution.Rows
