import SwarmEvolution.Proofs.Assignment.Potentials

/-! The method with guards. Arrays are read and written inside their bounds only, a column is
reached for good once, a way is followed only if it was noted for the row that is being placed, and
neither a search nor a path takes more turns than there are columns; what is against this is
refused. For costs in an order nothing is, whatever they are and whatever is added and
subtracted. -/
namespace SwarmEvolution.Assignment

section Guards

/-- Writes inside an array. -/
def write? {α : Type} (xs : Array α) (i : Nat) (a : α) : Option (Array α) :=
  if i < xs.size then some (xs.setIfInBounds i a) else none

/-- Changes an entry of an array. -/
def modify? {α : Type} (xs : Array α) (i : Nat) (f : α → α) : Option (Array α) := do
  write? xs i (f (← xs[i]?))

/-- The row or column before; none is before zero. -/
def before? : Nat → Option Nat
  | 0 => none
  | k + 1 => some k

/-- What a scan has found, and the columns that a way was noted for since the search began. -/
structure Notes (κ : Type) extends Scan κ where
  noted : List Nat

variable {κ : Type} [Cost κ] (cost? : Nat → Nat → Option κ) (n : Nat)

/-- The reduced cost of a column for the owner of the column reached last. -/
def reduced? (s : Search κ) (column : Nat) : Option κ := do
  let row ← s.owner[s.column]?
  let price ← cost? (← before? row) (← before? column)
  return price - (← s.rowPotential[row]?) - (← s.columnPotential[column]?)

/-- Notes the cost of a column, and the way to it, if the cost is less than what is known. -/
def note? (s : Search κ) (found : Notes κ) (column : Nat) : Option (Notes κ) := do
  let price ← reduced? cost? s column
  if price < (← found.least[column]?) then
    return { found with
      least := ← write? found.least column price
      way := ← write? found.way column s.column
      noted := column :: found.noted }
  else return found

/-- Takes a column if it is cheaper than the one found so far. -/
def choose? (found : Notes κ) (column : Nat) : Option (Notes κ) := do
  let known ← found.least[column]?
  return if known < found.cost then { found with column, cost := known } else found

def look? (s : Search κ) (found : Notes κ) (column : Nat) : Option (Notes κ) := do
  if ← s.reached[column]? then return found
  choose? (← note? cost? s found column) column

def scan? (s : Search κ) (noted : List Nat) : Option (Notes κ) :=
  (List.range n).foldlM (fun found k => look? cost? s found (k + 1))
    ⟨⟨s.least, s.way, 0, Cost.infinity⟩, noted⟩

/-- Moves the potentials at a column that is reached, or what is left of the cost of another one. -/
def shiftAt? (delta : κ) (s : Search κ) (column : Nat) : Option (Search κ) := do
  if ← s.reached[column]? then
    return { s with
      rowPotential := ← modify? s.rowPotential (← s.owner[column]?) (· + delta)
      columnPotential := ← modify? s.columnPotential column (· - delta) }
  else return { s with least := ← modify? s.least column (· - delta) }

def shift? (delta : κ) (s : Search κ) : Option (Search κ) :=
  (List.range (n + 1)).foldlM (shiftAt? delta) s

/-- The search, with the columns that it has noted a way for. -/
def search? : (turns : Nat) → Search κ → (noted : List Nat) → Option (Search κ × List Nat)
  | 0, _, _ => none
  | turns + 1, s, noted => do
    -- Every turn reaches a column that none before has reached.
    if ← s.reached[s.column]? then none
    let s : Search κ := { s with reached := ← write? s.reached s.column true }
    let found ← scan? cost? n s noted
    let s : Search κ := { s with least := found.least, way := found.way }
    if found.column = 0 then return (s, found.noted)
    let s : Search κ := { ← shift? n found.cost s with column := found.column }
    if (← s.owner[s.column]?) = 0 then return (s, found.noted)
    search? turns s found.noted

/-- Goes back to column zero along ways that are noted. -/
def augment? (noted : List Nat) : (turns column : Nat) → State κ → Option (State κ)
  | 0, _, _ => none
  | turns + 1, column, s => do
    if column = 0 then return s
    if column ∉ noted then none
    let before ← s.way[column]?
    let owner ← write? s.owner column (← s.owner[before]?)
    augment? noted turns before { s with owner }

def place? (s : State κ) (row : Nat) : Option (State κ) := do
  let start : Search κ :=
    { s with
      owner := ← write? s.owner 0 row
      least := Array.replicate (n + 1) Cost.infinity
      reached := Array.replicate (n + 1) false
      column := 0 }
  let (ended, noted) ← search? cost? n (n + 1) start []
  augment? noted (n + 1) ended.column ended.toState

def solve? : Option (State κ) :=
  (List.range n).foldlM (fun s k => place? cost? n s (k + 1)) (State.initial n)

/-- Notes a column for the row that owns it. -/
def read? (s : State κ) (found : Array Nat) (k : Nat) : Option (Array Nat) := do
  match ← s.owner[k + 1]? with
  | 0 => return found
  | row + 1 => write? found row k

def columns? (s : State κ) : Option (List Nat) :=
  ((List.range n).foldlM (read? s) (Array.replicate n 0)).map Array.toList

/-- The columns that `n` rows are assigned to, if no guard refuses a step. -/
def assign? : Option (List Nat) := do columns? n (← solve? cost? n)

end Guards

section Arrays

variable {α : Type} {xs : Array α} {i m : Nat} {a d : α} {p : Nat → Bool} {f : α → α}

theorem getElem?_eq_getD (inside : i < xs.size) : xs[i]? = some (xs.getD i d) := by
  rw [Array.getD_eq_getD_getElem?, Array.getElem?_eq_getElem inside, Option.getD_some]

theorem write?_eq (inside : i < xs.size) : write? xs i a = some (xs.setIfInBounds i a) :=
  if_pos inside

theorem before?_eq {k : Nat} (positive : 0 < k) : before? k = some (k - 1) := by
  cases k with
  | zero => contradiction
  | succ k => rfl

theorem foldlM_range_succ {σ : Type} (step : σ → Nat → Option σ) (m : Nat) (s : σ) :
    (List.range (m + 1)).foldlM step s = (List.range m).foldlM step s >>= (step · m) := by
  rw [List.range_succ, List.foldlM_append]
  simp

/-- A loop whose turns are refused nothing, as long as they keep what they rely on. -/
theorem foldlM_range_eq {σ : Type} {step? : σ → Nat → Option σ} {step : σ → Nat → σ}
    (Keeps : σ → Prop) {n : Nat} {s : σ} (start : Keeps s)
    (turn : ∀ s, Keeps s → ∀ k < n, step? s k = some (step s k) ∧ Keeps (step s k)) :
    (List.range n).foldlM step? s = some ((List.range n).foldl step s) ∧
      Keeps ((List.range n).foldl step s) := by
  induction n with
  | zero => exact ⟨rfl, start⟩
  | succ n ih =>
    obtain ⟨same, kept⟩ := ih fun s kept k below => turn s kept k (by omega)
    rw [foldlM_range_succ, foldl_range_succ, same]
    exact turn _ kept n n.lt_succ_self

theorem modify?_eq (inside : i < xs.size) : modify? xs i f = some (xs.modify i f) := by
  have changed : xs.setIfInBounds i (f xs[i]) = xs.modify i f := by
    refine Array.ext_getElem? fun j => ?_
    rw [Array.getElem?_modify, Array.getElem?_setIfInBounds]
    by_cases same : i = j
    · subst same
      rw [if_pos rfl, if_pos rfl, if_pos inside, Array.getElem?_eq_getElem inside, Option.map_some]
    · rw [if_neg same, if_neg same]
  rw [modify?, Array.getElem?_eq_getElem inside, ← changed]
  exact write?_eq inside

/-- The entries before `m` that are meant are changed. -/
def changedTo (p : Nat → Bool) (f : α → α) (xs : Array α) (m : Nat) : Array α :=
  xs.mapIdx fun j v => if j < m ∧ p j then f v else v

theorem size_changedTo : (changedTo p f xs m).size = xs.size := Array.size_mapIdx

theorem changedTo_zero : changedTo p f xs 0 = xs := by
  refine Array.ext_getElem? fun j => ?_
  simp [changedTo, Array.getElem?_mapIdx]

theorem changedTo_succ : changedTo p f xs (m + 1) =
    if p m then (changedTo p f xs m).modify m f else changedTo p f xs m := by
  refine Array.ext_getElem? fun j => ?_
  by_cases same : j = m
  · subst same
    cases meant : p j <;> simp [changedTo, Array.getElem?_mapIdx, Array.getElem?_modify, meant]
  · have earlier : j < m + 1 ↔ j < m := by omega
    have entry : (changedTo p f xs (m + 1))[j]? = (changedTo p f xs m)[j]? := by
      simp only [changedTo, Array.getElem?_mapIdx, earlier]
    rw [entry]
    split
    · rw [Array.getElem?_modify, if_neg (Ne.symm same)]
    · rfl

theorem changedTo_size (all : xs.size ≤ m) :
    changedTo p f xs m = xs.mapIdx fun j v => if p j then f v else v := by
  refine Array.ext_getElem? fun j => ?_
  rw [changedTo, Array.getElem?_mapIdx, Array.getElem?_mapIdx]
  by_cases inside : j < xs.size
  · simp [show j < m by omega]
  · rw [Array.getElem?_eq_none (by omega)]
    rfl

end Arrays

/-- All arrays have a place for every column or row, and no owner is beyond the rows. -/
structure State.Fits {κ : Type} (n : Nat) (s : State κ) : Prop where
  size_row : s.rowPotential.size = n + 1
  size_column : s.columnPotential.size = n + 1
  size_owner : s.owner.size = n + 1
  size_way : s.way.size = n + 1
  ownerOf_le : ∀ j ≤ n, s.ownerOf j ≤ n

namespace State.Fits

variable {κ : Type} {n : Nat} {s : State κ} (fits : s.Fits n) {j : Nat}

include fits

theorem owner_eq (inside : j ≤ n) : s.owner[j]? = some (s.ownerOf j) :=
  getElem?_eq_getD (by rw [fits.size_owner]; omega)

theorem way_eq (inside : j ≤ n) : s.way[j]? = some (s.way.getD j 0) :=
  getElem?_eq_getD (by rw [fits.size_way]; omega)

theorem row_eq (zero : κ) (inside : j ≤ n) :
    s.rowPotential[j]? = some (s.rowPotential.getD j zero) :=
  getElem?_eq_getD (by rw [fits.size_row]; omega)

theorem column_eq (zero : κ) (inside : j ≤ n) :
    s.columnPotential[j]? = some (s.columnPotential.getD j zero) :=
  getElem?_eq_getD (by rw [fits.size_column]; omega)

end State.Fits

variable {κ : Type} {n : Nat}

/-- A search at a column that a row owns, and whose arrays fit. -/
structure Search.Ready (n : Nat) (s : Search κ) : Prop extends s.toState.Fits n where
  inside : s.column ≤ n
  owner : s.ownerOf s.column ≠ 0
  size_least : s.least.size = n + 1
  size_reached : s.reached.size = n + 1

theorem Search.Ready.reached_eq {s : Search κ} {j : Nat} (ready : s.Ready n) (inside : j ≤ n) :
    s.reached[j]? = some (s.isReached j) :=
  getElem?_eq_getD (by rw [ready.size_reached]; omega)

variable [Cost κ] {cost? : Nat → Nat → Option κ} {cost : Nat → Nat → κ}

section Looking

variable {s : Search κ} {found : Notes κ} {j m : Nat}
  (priced : ∀ i < n, ∀ j < n, cost? i j = some (cost i j)) (ready : s.Ready n)

section Columns

variable (positive : 0 < j) (inside : j ≤ n)

include priced ready positive inside

theorem reduced?_eq : reduced? cost? s j = some (s.reduced cost j) := by
  have row := ready.ownerOf_le _ ready.inside
  have some := Nat.pos_of_ne_zero ready.owner
  simp only [reduced?, ready.owner_eq ready.inside, before?_eq some, before?_eq positive,
    priced (s.ownerOf s.column - 1) (by omega) (j - 1) (by omega), ready.row_eq Cost.zero row,
    ready.column_eq Cost.zero inside, Option.bind_eq_bind, Option.bind_some]
  rfl

theorem note?_eq (least : found.least.size = n + 1) (way : found.way.size = n + 1) :
    note? cost? s found j = some ⟨found.toScan.note cost s j,
      if s.reduced cost j < found.leastTo j then j :: found.noted else found.noted⟩ := by
  have among : j < found.least.size := by omega
  have along : j < found.way.size := by omega
  have known : found.least[j]? = some (found.leastTo j) := getElem?_eq_getD among
  simp only [note?, reduced?_eq priced ready positive inside, known, Scan.note, write?_eq among,
    write?_eq along, Option.bind_eq_bind, Option.bind_some]
  split <;> rfl

omit priced ready positive in
theorem choose?_eq (least : found.least.size = n + 1) :
    choose? found j = some ⟨found.toScan.choose j, found.noted⟩ := by
  have known : found.least[j]? = some (found.leastTo j) := getElem?_eq_getD (by omega)
  simp only [choose?, known, Scan.choose, Option.bind_eq_bind, Option.bind_some]
  split <;> rfl

theorem look?_eq (least : found.least.size = n + 1) (way : found.way.size = n + 1) :
    look? cost? s found j = some ⟨look cost s found.toScan j,
      if s.isReached j = false ∧ s.reduced cost j < found.leastTo j then j :: found.noted
      else found.noted⟩ := by
  have size : (found.toScan.note cost s j).least.size = n + 1 := by
    rw [Scan.note]
    split
    · exact Array.size_setIfInBounds.trans least
    · exact least
  cases reached : s.isReached j with
  | true =>
    rw [look?, ready.reached_eq inside, reached, look_of_reached reached]
    simp
  | false =>
    rw [look?, ready.reached_eq inside, reached, note?_eq priced ready positive inside least way,
      look_of_unreached reached (by omega)]
    simp only [Option.bind_eq_bind, Option.bind_some, Bool.false_eq_true, if_false, true_and]
    exact choose?_eq inside size

end Columns

variable [Cost.Ordered κ]

include priced ready

/-- A scan is refused nothing, and it keeps account of the columns that it notes a way for. -/
theorem scan?_spec (covered : m ≤ n) (noted : List Nat) :
    ∃ later, scan? cost? m s noted = some ⟨scan cost m s, later⟩ ∧ noted ⊆ later ∧
      ∀ j, 0 < j → j ≤ m → s.Nearer cost j → j ∈ later := by
  induction m with
  | zero => exact ⟨noted, rfl, List.Subset.refl _, fun j positive none => by omega⟩
  | succ m ih =>
    obtain ⟨before, scanned, kept, nearer⟩ := ih (by omega)
    have least := ready.size_least
    have way := ready.size_way
    have account : Noted cost s m (scan cost m s) := (scan_spec (by omega) (by omega)).1
    have looked : look? cost? s ⟨scan cost m s, before⟩ (m + 1) = _ :=
      look?_eq priced ready m.succ_pos covered (account.size_least.trans least)
        (account.size_way.trans way)
    have all : scan? cost? (m + 1) s noted = scan? cost? m s noted >>= (look? cost? s · (m + 1)) :=
      foldlM_range_succ ..
    rw [all, scanned, scan_succ]
    refine ⟨_, looked, fun j old => ?_, fun j positive below closer => ?_⟩
    · split
      · exact .tail _ (kept old)
      · exact kept old
    · by_cases last : j = m + 1
      · subst last
        have known := (account.kept (m + 1) fun _ covered => by omega).1
        rw [if_pos ⟨closer.1, show _ < (scan cost m s).leastTo (m + 1) from known ▸ closer.2⟩]
        exact List.mem_cons_self
      · have old := nearer j positive (by omega) closer
        split
        · exact .tail _ old
        · exact old

end Looking

section Shifting

variable {s : Search κ} {delta : κ} {m : Nat}

/-- The search when the potentials are moved at the columns before `m`. -/
def Search.shiftedTo (s : Search κ) (delta : κ) (m : Nat) : Search κ :=
  { s with
    rowPotential := (List.range m).foldl (s.raiseRow delta) s.rowPotential
    columnPotential := changedTo s.isReached (· - delta) s.columnPotential m
    least := changedTo (fun j => !s.isReached j) (· - delta) s.least m }

theorem shiftAt?_eq (ready : s.Ready n) (inside : m ≤ n) :
    shiftAt? delta (s.shiftedTo delta m) m = some (s.shiftedTo delta (m + 1)) := by
  have rows : (List.range (m + 1)).foldl (s.raiseRow delta) s.rowPotential =
      s.raiseRow delta ((List.range m).foldl (s.raiseRow delta) s.rowPotential) m :=
    foldl_range_succ ..
  have row : s.ownerOf m < ((List.range m).foldl (s.raiseRow delta) s.rowPotential).size := by
    have owner := ready.ownerOf_le m inside
    rw [size_foldl_raiseRow, ready.size_row]
    omega
  have column : m < (changedTo s.isReached (· - delta) s.columnPotential m).size := by
    rw [size_changedTo, ready.size_column]
    omega
  have least : m < (changedTo (fun j => !s.isReached j) (· - delta) s.least m).size := by
    rw [size_changedTo, ready.size_least]
    omega
  have reached : s.reached[m]? = some (s.isReached m) := ready.reached_eq inside
  simp only [shiftAt?, Search.shiftedTo, reached, ready.owner_eq inside, modify?_eq row,
    modify?_eq column, modify?_eq least, rows, Search.raiseRow, changedTo_succ, Option.bind_eq_bind,
    Option.bind_some]
  cases s.isReached m <;> rfl

theorem shift?_eq (ready : s.Ready n) : shift? n delta s = some (shift n delta s) := by
  have steps (m : Nat) (few : m ≤ n + 1) :
      (List.range m).foldlM (shiftAt? delta) s = some (s.shiftedTo delta m) := by
    induction m with
    | zero => simp [Search.shiftedTo, changedTo_zero]
    | succ m ih =>
      rw [foldlM_range_succ, ih (by omega)]
      exact shiftAt?_eq ready (by omega)
  rw [shift?, steps (n + 1) le_rfl, Search.shiftedTo, changedTo_size ready.size_column.le,
    changedTo_size ready.size_least.le, shift, raiseRows_eq]
  congr 3
  funext j c
  cases s.isReached j <;> rfl

end Shifting

end SwarmEvolution.Assignment
