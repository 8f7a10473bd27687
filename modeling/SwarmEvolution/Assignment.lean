/-!
Assignment of rows to columns at the least total cost, by shortest augmenting paths under row and
column potentials. Rows and columns are counted from one; column zero stands for the row that is
being placed. The method is written for any costs with addition, subtraction and comparison, so that
it can be reasoned about in exact arithmetic and run in double precision.
-/
namespace SwarmEvolution

/-- Costs, with a value that is compared as higher than any of them. -/
class Cost (κ : Type) extends Add κ, Sub κ, LT κ where
  zero : κ
  infinity : κ
  decLt : DecidableRel (α := κ) (· < ·)

instance Cost.decidableLT [Cost κ] : DecidableLT κ := Cost.decLt

namespace Assignment

variable {κ : Type} [Cost κ]

/-- What is known between two rows. -/
structure State (κ : Type) where
  rowPotential : Array κ
  columnPotential : Array κ
  /-- The row that each column is given to, zero for none. -/
  owner : Array Nat
  /-- The column before each one on the path that reached it last. -/
  way : Array Nat

/-- The search for a free column: what is known, the least reduced cost at which each column can be
reached, the columns reached for good, and the last one of them. -/
structure Search (κ : Type) extends State κ where
  least : Array κ
  reached : Array Bool
  column : Nat

def Search.isReached (s : Search κ) (column : Nat) : Bool := s.reached.getD column false

def State.ownerOf (s : State κ) (column : Nat) : Nat := s.owner.getD column 0

/-- Before the first row. -/
def State.initial (n : Nat) : State κ where
  rowPotential := Array.replicate (n + 1) Cost.zero
  columnPotential := Array.replicate (n + 1) Cost.zero
  owner := Array.replicate (n + 1) 0
  way := Array.replicate (n + 1) 0

/-- What a scan changes, and the cheapest column that it has found, zero for none, with its cost. -/
structure Scan (κ : Type) where
  least : Array κ
  way : Array Nat
  column : Nat
  cost : κ

/-- Looks at one column from the owner of the column reached last. -/
def look (cost : Nat → Nat → κ) (s : Search κ) (found : Scan κ) (column : Nat) : Scan κ :=
  if s.isReached column then found
  else
    let row := s.ownerOf s.column
    let reduced := cost (row - 1) (column - 1) - s.rowPotential.getD row Cost.zero
      - s.columnPotential.getD column Cost.zero
    let known := found.least.getD column Cost.infinity
    if reduced < known then
      let least := found.least.setIfInBounds column reduced
      let way := found.way.setIfInBounds column s.column
      if reduced < found.cost then ⟨least, way, column, reduced⟩
      else ⟨least, way, found.column, found.cost⟩
    else if known < found.cost then ⟨found.least, found.way, column, known⟩
    else found

/-- Looks at all columns. -/
def scan (cost : Nat → Nat → κ) (n : Nat) (s : Search κ) : Scan κ :=
  (List.range n).foldl (fun found k => look cost s found (k + 1))
    ⟨s.least, s.way, 0, Cost.infinity⟩

/-- Raises the potentials of the rows that own a reached column. -/
def raiseRows (n : Nat) (delta : κ) (s : Search κ) : Array κ :=
  (List.range (n + 1)).foldl (fun potentials column =>
    if s.isReached column then potentials.modify (s.ownerOf column) (· + delta)
    else potentials) s.rowPotential

/-- Moves the potentials so that the cheapest column costs nothing more to reach. -/
def shift (n : Nat) (delta : κ) (s : Search κ) : Search κ :=
  { s with
    rowPotential := raiseRows n delta s
    columnPotential := s.columnPotential.mapIdx fun column v =>
      if s.isReached column then v - delta else v
    least := s.least.mapIdx fun column c => if s.isReached column then c else c - delta }

/-- Reaches one column after another until a free one is reached or none can be. Every turn reaches
a new column, so `n + 1` turns are enough. -/
def search (cost : Nat → Nat → κ) (n : Nat) : (turns : Nat) → Search κ → Search κ
  | 0, s => s
  | turns + 1, s =>
    let s : Search κ := { s with reached := s.reached.setIfInBounds s.column true }
    let found := scan cost n s
    let s : Search κ := { s with least := found.least, way := found.way }
    if found.column = 0 then s
    else
      let s : Search κ := { shift n found.cost s with column := found.column }
      if s.ownerOf s.column = 0 then s else search cost n turns s

/-- Gives each column of the path to the owner of the one before it. -/
def augment : (turns column : Nat) → State κ → State κ
  | 0, _, s => s
  | turns + 1, column, s =>
    if column = 0 then s
    else
      let before := s.way.getD column 0
      augment turns before { s with owner := s.owner.setIfInBounds column (s.ownerOf before) }

/-- Places one row. -/
def place (cost : Nat → Nat → κ) (n : Nat) (s : State κ) (row : Nat) : State κ :=
  let start : Search κ :=
    { s with
      owner := s.owner.setIfInBounds 0 row
      least := Array.replicate (n + 1) Cost.infinity
      reached := Array.replicate (n + 1) false
      column := 0 }
  let ended := search cost n (n + 1) start
  augment (n + 1) ended.column ended.toState

/-- Places all rows, in order. -/
def solve (cost : Nat → Nat → κ) (n : Nat) : State κ :=
  (List.range n).foldl (fun s k => place cost n s (k + 1)) (State.initial n)

/-- The column of each row, counted from zero; zero for a row that was given none. -/
def columns (n : Nat) (s : State κ) : List Nat :=
  ((List.range n).foldl (fun (found : Array Nat) k =>
    match s.ownerOf (k + 1) with
    | 0 => found
    | row + 1 => found.setIfInBounds row k) (Array.replicate n 0)).toList

/-- The columns that `n` rows are assigned to. -/
def assign (cost : Nat → Nat → κ) (n : Nat) : List Nat := columns n (solve cost n)

end Assignment

/-- The largest finite double-precision number. -/
def largestDouble : Float := Float.ofBits 0x7fefffffffffffff

instance : Cost Float where
  zero := 0
  infinity := 1 / 0
  decLt := inferInstance

/-- The entry of a matrix of costs. One that is missing or not a number is as high as any. -/
def matrixCost (rows : Array (Array Float)) (i j : Nat) : Float :=
  let c := (rows.getD i #[]).getD j largestDouble
  if c.isNaN then largestDouble else c

/-- The columns that the rows of a square matrix are assigned to. -/
def assignMatrix (rows : List (List Float)) : List Nat :=
  Assignment.assign (matrixCost (rows.map List.toArray).toArray) rows.length

end SwarmEvolution
