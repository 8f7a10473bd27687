/-!
Stacks of values of one type. Every operation is total: reading an empty stack gives nothing, and a
rearrangement that needs more elements than there are leaves the stack alone.
-/
namespace SwarmEvolution

@[ext]
structure Stack (α : Type) where
  /-- The elements, top first. -/
  items : List α
  deriving BEq, DecidableEq, Repr

namespace Stack

variable {α : Type}

instance : Inhabited (Stack α) := ⟨⟨[]⟩⟩

def empty : Stack α := ⟨[]⟩

def size (s : Stack α) : Nat := s.items.length
def isEmpty (s : Stack α) : Bool := s.items.isEmpty

/-- Whether there are at least `n` elements; those below them are not counted. -/
def has (s : Stack α) : Nat → Bool
  | 0 => true
  | n + 1 => s.items[n]?.isSome

theorem has_iff {s : Stack α} {n : Nat} : s.has n ↔ n ≤ s.size := by
  cases n with
  | zero => exact iff_of_true rfl (Nat.zero_le _)
  | succ n =>
    rw [has, Option.isSome_iff_ne_none, ne_eq, List.getElem?_eq_none_iff, Nat.not_le]
    exact Iff.rfl

def push (s : Stack α) (a : α) : Stack α := ⟨a :: s.items⟩

/-- Pushes the elements of a list, its first one first. -/
def pushAll (s : Stack α) (as : List α) : Stack α := as.foldl push s

theorem items_pushAll (s : Stack α) (as : List α) :
    (s.pushAll as).items = as.reverse ++ s.items := by
  induction as generalizing s with
  | nil => rfl
  | cons a as ih =>
    rw [List.reverse_cons, List.append_assoc]
    exact ih (s.push a)

def top? (s : Stack α) : Option α := s.items.head?

/-- The top and the stack below it. -/
def pop? (s : Stack α) : Option (α × Stack α) :=
  match s.items with
  | [] => none
  | a :: rest => some (a, ⟨rest⟩)

/-- The stack below the top. -/
def drop (s : Stack α) : Stack α := ⟨s.items.tail⟩

/-- The elements, bottom first. -/
def toList (s : Stack α) : List α := s.items.reverse

/-- The element at a position counted from the bottom. -/
def get? (s : Stack α) (position : Nat) : Option α := s.toList[position]?

def dup (s : Stack α) : Stack α :=
  match s.items with
  | [] => s
  | a :: rest => ⟨a :: a :: rest⟩

def swap (s : Stack α) : Stack α :=
  match s.items with
  | a :: b :: rest => ⟨b :: a :: rest⟩
  | _ => s

/-- Moves the third element to the top. -/
def rot (s : Stack α) : Stack α :=
  match s.items with
  | a :: b :: c :: rest => ⟨c :: a :: b :: rest⟩
  | _ => s

/-- A depth moved into the range of depths that the stack has. -/
def clampDepth (s : Stack α) (depth : Int) : Nat := min depth.toNat (s.size - 1)

/-- Moves the element at a depth to the top. -/
def yank (s : Stack α) (depth : Int) : Stack α :=
  let d := s.clampDepth depth
  match s.items[d]? with
  | none => s
  | some a => ⟨a :: s.items.eraseIdx d⟩

/-- Copies the element at a depth onto the top. -/
def yankDup (s : Stack α) (depth : Int) : Stack α :=
  match s.items[s.clampDepth depth]? with
  | none => s
  | some a => s.push a

/-- Moves the top down to a depth. -/
def shove (s : Stack α) (depth : Int) : Stack α :=
  match s.items with
  | [] => s
  | a :: rest => ⟨rest.insertIdx (s.clampDepth depth) a⟩

/-- The elements in brackets, top first. -/
def render (text : α → String) (s : Stack α) : String :=
  "[" ++ " ".intercalate (s.items.map text) ++ "]"

end Stack
end SwarmEvolution
