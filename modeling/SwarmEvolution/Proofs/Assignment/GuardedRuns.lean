import SwarmEvolution.Proofs.Assignment.Guards

/-! Runs of the method with guards. What a search has noted since it began leads back from every
column that it reaches, so neither the search nor the way back is refused anything. -/
namespace SwarmEvolution.Assignment

variable {κ : Type} {n : Nat}

/-- A path back to column zero, along ways that have been noted since the search began. -/
structure State.Retraceable (n : Nat) (s : State κ) (path log : List Nat) : Prop
    extends s.Fits n where
  leads : Trail (s.way.getD · 0) path
  inside : ∀ j ∈ path, j ≤ n
  noted : ∀ j ∈ path, j ≠ 0 → j ∈ log

section Reversing

variable {s : State κ} {path log : List Nat} {j : Nat}

theorem State.Fits.passed (fits : s.Fits n) (inside : j ≤ n) (before : s.wayFrom j ≤ n) :
    (s.passed j).Fits n := by
  refine ⟨fits.size_row, fits.size_column, Array.size_setIfInBounds.trans fits.size_owner,
    fits.size_way, fun k within => ?_⟩
  by_cases same : j = k
  · subst same
    rw [State.ownerOf, State.passed, getD_set_self (by rw [fits.size_owner]; omega)]
    exact fits.ownerOf_le _ before
  · rw [State.ownerOf, State.passed, getD_set_of_ne same]
    exact fits.ownerOf_le k within

/-- Going back one step along a path. -/
theorem State.Retraceable.passed (back : s.Retraceable n (j :: path) log) (later : j ≠ 0) :
    ∃ rest, (s.passed j).Retraceable n (s.wayFrom j :: rest) log ∧ rest.length < path.length := by
  have leads : Trail s.wayFrom (j :: path) := back.leads
  obtain ⟨rest, before, suffix⟩ := (leads.tail later).exists_suffix (leads.way_mem later)
  have within : s.wayFrom j :: rest ⊆ j :: path := fun k member => .tail _ (suffix.subset member)
  have shorter := suffix.length_le
  rw [List.length_cons] at shorter
  refine ⟨rest, ⟨?_, before, fun k member => back.inside k (within member),
    fun k member => back.noted k (within member)⟩, by omega⟩
  exact back.toFits.passed (back.inside j List.mem_cons_self)
    (back.inside _ (within List.mem_cons_self))

/-- Going back along a path that is noted is refused nothing, and it ends at column zero. -/
theorem augment?_spec (turns : Nat) (back : s.Retraceable n (j :: path) log)
    (enough : path.length < turns) :
    augment? log turns j s = some (augment turns j s) ∧ (augment turns j s).Fits n := by
  induction turns generalizing s j path with
  | zero => exact absurd enough (Nat.not_lt_zero _)
  | succ turns ih =>
    by_cases last : j = 0
    · rw [augment?, augment, if_pos last, if_pos last]
      exact ⟨rfl, back.toFits⟩
    · obtain ⟨rest, before, shorter⟩ := back.passed last
      obtain ⟨same, fits⟩ := ih before (by omega)
      have inside := back.inside j List.mem_cons_self
      have way : s.way[j]? = some (s.wayFrom j) := back.way_eq inside
      have owner := back.owner_eq (before.inside _ List.mem_cons_self)
      have written : write? s.owner j (s.ownerOf (s.wayFrom j)) = some (s.passed j).owner :=
        write?_eq (by rw [back.size_owner]; omega)
      have noted : ¬ j ∉ log := not_not_intro (back.noted j List.mem_cons_self last)
      rw [augment, if_neg last]
      refine ⟨?_, fits⟩
      simp only [augment?, if_neg last, if_neg noted, way, owner, written, Option.bind_eq_bind,
        Option.bind_some]
      exact same

end Reversing

variable [Cost κ] {cost? : Nat → Nat → Option κ} {cost : Nat → Nat → κ}

/-- A search that has noted all ways that matter since it began: those along the columns reached,
and those to columns with a cost. -/
structure Search.Recorded (n : Nat) (s : Search κ) (trail log : List Nat) : Prop
    extends s.Reaches n trail where
  fits : s.toState.Fits n
  path : ∀ j ∈ s.column :: trail, j ≠ 0 → j ∈ log
  priced : ∀ j, 0 < j → j ≤ n → j ∉ trail → s.leastTo j ≠ Cost.infinity → j ∈ log

section Searching

variable {s : Search κ} {trail log later : List Nat}

theorem Search.Recorded.retraceable (recorded : s.Recorded n trail log) :
    s.toState.Retraceable n (s.column :: trail) log :=
  ⟨recorded.fits, recorded.leads, recorded.inside, recorded.path⟩

theorem Search.Recorded.ready (recorded : s.Recorded n trail log)
    (owner : s.ownerOf s.column ≠ 0) : s.marked.Ready n :=
  ⟨recorded.fits, recorded.inside _ List.mem_cons_self, owner, recorded.size_least,
    Array.size_setIfInBounds.trans recorded.size_reached⟩

variable [Cost.Ordered κ] (recorded : s.Recorded n trail log)

include recorded

theorem Search.Recorded.fits_looked : (s.looked cost n).toState.Fits n :=
  ⟨recorded.fits.size_row, recorded.fits.size_column, recorded.fits.size_owner,
    (recorded.scanned cost).1.size_way.trans recorded.size_way, recorded.fits.ownerOf_le⟩

theorem Search.Recorded.fits_advanced : (s.advanced cost n).toState.Fits n :=
  ⟨(size_foldl_raiseRow (n + 1)).trans recorded.fits.size_row,
    Array.size_mapIdx.trans recorded.fits.size_column, recorded.fits.size_owner,
    (recorded.scanned cost).1.size_way.trans recorded.size_way, recorded.fits.ownerOf_le⟩

theorem Search.Recorded.ready_looked (owner : s.ownerOf s.column ≠ 0) :
    (s.looked cost n).Ready n :=
  ⟨recorded.fits_looked, recorded.inside _ List.mem_cons_self, owner,
    (recorded.scanned cost).1.size_least.trans recorded.size_least,
    Array.size_setIfInBounds.trans recorded.size_reached⟩

section Turns

variable (kept : log ⊆ later)

include kept

/-- A search that finds no other column can be gone back from where it is. -/
theorem Search.Recorded.retraceable_looked :
    (s.looked cost n).toState.Retraceable n (s.column :: trail) later :=
  ⟨recorded.fits_looked, recorded.leads.congr fun _ => recorded.wayFrom_looked, recorded.inside,
    fun j member positive => kept (recorded.path j member positive)⟩

variable (nearer : ∀ j, 0 < j → j ≤ n → s.marked.Nearer cost j → j ∈ later)

include nearer

/-- A column that has a cost after a look is noted. -/
theorem Search.Recorded.noted_looked {j : Nat} (positive : 0 < j) (inside : j ≤ n)
    (new : j ∉ s.column :: trail) (priced : (s.looked cost n).leastTo j ≠ Cost.infinity) :
    j ∈ later := by
  by_cases closer : s.marked.Nearer cost j
  · exact nearer j positive inside closer
  · have same := ((recorded.scanned cost).1.kept j fun _ _ => closer).1
    exact kept (recorded.priced j positive inside (fun old => new (.tail _ old))
      fun none => priced (same.trans none))

/-- One turn of a search. -/
theorem Search.Recorded.advanced (owner : s.ownerOf s.column ≠ 0)
    (found : (scan cost n s.marked).column ≠ 0) :
    (s.advanced cost n).Recorded n (s.column :: trail) later := by
  obtain ⟨covered, -, price, dearer, below⟩ := (recorded.scanned cost).2.some found
  have new := recorded.chosen_new found
  refine ⟨recorded.toReaches.advanced owner found, recorded.fits_advanced, ?_, ?_⟩
  · refine List.forall_mem_cons.mpr ⟨fun _ => ?_, fun j member positive =>
      kept (recorded.path j member positive)⟩
    refine recorded.noted_looked kept nearer (Nat.pos_of_ne_zero found) covered new fun none => ?_
    rw [price.trans none] at below
    exact Cost.Ordered.not_infinity_lt _ below
  · intro j positive inside unseen left
    rw [recorded.leastTo_advanced inside unseen] at left
    refine recorded.noted_looked kept nearer positive inside unseen fun none => left ?_
    rw [none, Cost.Ordered.infinity_sub below]

end Turns

/-- One turn of a search is refused nothing. -/
theorem search?_succ (turns : Nat) (lawful : ∀ i < n, ∀ j < n, cost? i j = some (cost i j))
    (owner : s.ownerOf s.column ≠ 0) :
    ∃ later, log ⊆ later ∧ (∀ j, 0 < j → j ≤ n → s.marked.Nearer cost j → j ∈ later) ∧
      search? cost? n (turns + 1) s log =
        if (scan cost n s.marked).column = 0 then some (s.looked cost n, later)
        else if (s.advanced cost n).ownerOf (s.advanced cost n).column = 0 then
          some (s.advanced cost n, later)
        else search? cost? n turns (s.advanced cost n) later := by
  obtain ⟨later, scanned, kept, nearer⟩ := scan?_spec lawful (recorded.ready owner) le_rfl log
  have inside : s.column < s.reached.size := by
    have := recorded.inside _ List.mem_cons_self
    rw [recorded.size_reached]
    omega
  have new : s.reached[s.column]? = some false := by
    rw [getElem?_eq_getD (d := false) inside]
    exact congrArg some (Bool.eq_false_iff.mpr fun reached =>
      recorded.leads.not_mem ((recorded.reached _).mp reached))
  have marked : write? s.reached s.column true = some s.marked.reached := write?_eq inside
  have shifted : shift? n (scan cost n s.marked).cost (s.looked cost n) =
      some (shift n (scan cost n s.marked).cost (s.looked cost n)) :=
    shift?_eq (recorded.ready_looked owner)
  refine ⟨later, kept, nearer, ?_⟩
  simp only [search?, new, marked, Option.bind_eq_bind, Option.bind_some, Bool.false_eq_true,
    if_false]
  change (scan? cost? n s.marked log).bind _ = _
  rw [scanned, Option.bind_some]
  dsimp only
  split
  · rfl
  · rename_i found
    change (shift? n (scan cost n s.marked).cost (s.looked cost n)).bind _ = _
    rw [shifted, Option.bind_some]
    have owned : (s.advanced cost n).owner[(s.advanced cost n).column]? =
        some ((s.advanced cost n).ownerOf (s.advanced cost n).column) :=
      recorded.fits_advanced.owner_eq ((recorded.scanned cost).2.some found).1
    change ((s.advanced cost n).owner[(s.advanced cost n).column]?).bind _ = _
    rw [owned, Option.bind_some]
    rfl

/-- A search is refused nothing. It ends within as many turns as there are columns left, and then
the way back from its column is noted. -/
theorem search?_spec (turns : Nat) (lawful : ∀ i < n, ∀ j < n, cost? i j = some (cost i j))
    (owner : s.ownerOf s.column ≠ 0) (enough : n < trail.length + turns) :
    ∃ path later, search? cost? n turns s log = some (search cost n turns s, later) ∧
      (search cost n turns s).toState.Retraceable n
        ((search cost n turns s).column :: path) later := by
  -- Every turn makes the trail longer, and it never has more than the `n + 1` columns.
  induction turns generalizing s trail log with
  | zero =>
    have short := recorded.leads.length_le recorded.toReaches.inside
    rw [List.length_cons] at short
    omega
  | succ turns ih =>
    obtain ⟨later, kept, nearer, turn⟩ := search?_succ recorded turns lawful owner
    rw [turn, search_succ]
    by_cases none : (scan cost n s.marked).column = 0
    · rw [if_pos none, if_pos none]
      exact ⟨trail, later, rfl, recorded.retraceable_looked kept⟩
    · have moved := recorded.advanced kept nearer owner none
      rw [if_neg none, if_neg none]
      by_cases free : (s.advanced cost n).ownerOf (s.advanced cost n).column = 0
      · rw [if_pos free, if_pos free]
        exact ⟨_, later, rfl, moved.retraceable⟩
      · rw [if_neg free, if_neg free]
        refine ih moved free ?_
        rw [List.length_cons]
        omega

end Searching

section Placing

variable [Cost.Ordered κ] {s : State κ} {row m : Nat}
  (lawful : ∀ i < n, ∀ j < n, cost? i j = some (cost i j))

omit [Cost.Ordered κ] in
theorem recorded_begin (fits : s.Fits n) (inside : row ≤ n) :
    (Search.begin n s row).Recorded n [] [] := by
  refine ⟨Search.reaches_begin fits.size_way, ⟨fits.size_row, fits.size_column,
    Array.size_setIfInBounds.trans fits.size_owner, fits.size_way, fun j within => ?_⟩,
    fun j member later => absurd (List.mem_singleton.mp member) later,
    fun j _ _ _ priced => absurd (Search.leastTo_begin j) priced⟩
  by_cases first : 0 = j
  · subst first
    have owner : (Search.begin n s row).ownerOf 0 = row :=
      getD_set_self (by rw [fits.size_owner]; omega)
    rw [owner]
    exact inside
  · have owner : (Search.begin n s row).ownerOf j = s.ownerOf j := getD_set_of_ne first
    rw [owner]
    exact fits.ownerOf_le j within

include lawful

/-- Placing a row is refused nothing, whatever the ways that earlier rows have left behind. -/
theorem place?_spec (fits : s.Fits n) (positive : 0 < row) (inside : row ≤ n) :
    place? cost? n s row = some (place cost n s row) ∧ (place cost n s row).Fits n := by
  have recorded := recorded_begin fits inside
  have room : 0 < s.owner.size := by rw [fits.size_owner]; omega
  have owner : (Search.begin n s row).ownerOf (Search.begin n s row).column = row :=
    getD_set_self room
  obtain ⟨path, log, searched, back⟩ := search?_spec recorded (n + 1) lawful
    (owner.trans_ne (Nat.ne_of_gt positive)) (by rw [List.length_nil]; omega)
  have short := Trail.length_le back.leads back.inside
  rw [List.length_cons] at short
  obtain ⟨same, placed⟩ := augment?_spec (n + 1) back (by omega)
  refine ⟨?_, placed⟩
  have begun : write? s.owner 0 row = some (Search.begin n s row).owner := write?_eq room
  rw [place?, begun]
  change (search? cost? n (n + 1) (Search.begin n s row) []).bind _ = _
  rw [searched, Option.bind_some, place_eq]
  exact same

omit lawful [Cost.Ordered κ] in
theorem fits_initial (n : Nat) : (State.initial n : State κ).Fits n :=
  ⟨Array.size_replicate, Array.size_replicate, Array.size_replicate, Array.size_replicate,
    fun j _ => (getD_replicate (n + 1) j 0).trans_le n.zero_le⟩

/-- Placing the rows one after another is refused nothing. -/
theorem solve?_spec : solve? cost? n = some (solve cost n) ∧ (solve cost n).Fits n :=
  foldlM_range_eq (State.Fits n) (fits_initial n) fun _ fits k below =>
    place?_spec lawful fits k.succ_pos (by omega)

omit lawful [Cost.Ordered κ] [Cost κ] in
theorem read?_spec (fits : s.Fits n) {found : Array Nat} (size : found.size = n)
    (below : ∀ k ∈ found, k < n) {k : Nat} (inside : k < n) :
    read? s found k = some (s.read found k) ∧
      (s.read found k).size = n ∧ ∀ l ∈ s.read found k, l < n := by
  have row := fits.ownerOf_le (k + 1) inside
  rw [State.size_read, read?, fits.owner_eq inside, State.read]
  cases owner : s.ownerOf (k + 1) with
  | zero => exact ⟨rfl, size, below⟩
  | succ i =>
    refine ⟨write?_eq (by omega), size, fun l member => ?_⟩
    rcases Array.mem_or_eq_of_mem_setIfInBounds member with old | rfl
    · exact below l old
    · exact inside

omit lawful [Cost.Ordered κ] [Cost κ] in
/-- Rows read off their columns without a refusal, and all columns are below the number of rows. -/
theorem columns?_spec (fits : s.Fits n) :
    columns? n s = some (columns n s) ∧ ∀ k ∈ columns n s, k < n := by
  have start : ∀ k ∈ Array.replicate n 0, k < n := by
    intro k member
    obtain ⟨some, rfl⟩ := Array.mem_replicate.mp member
    exact Nat.pos_of_ne_zero some
  obtain ⟨same, -, below⟩ := foldlM_range_eq
    (fun found => found.size = n ∧ ∀ k ∈ found, k < n) ⟨Array.size_replicate, start⟩
    fun _ kept _ inside => read?_spec fits kept.1 kept.2 inside
  rw [columns_eq, columns?, same]
  exact ⟨rfl, fun k member => below k (Array.mem_toList_iff.mp member)⟩

/-- No guard refuses anything. -/
theorem assign?_spec : assign? cost? n = some (assign cost n) ∧ ∀ k ∈ assign cost n, k < n := by
  obtain ⟨solved, fits⟩ := solve?_spec lawful
  rw [assign?, solved]
  exact columns?_spec fits

end Placing
end SwarmEvolution.Assignment
