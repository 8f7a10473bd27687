import SwarmEvolution.Machine.Basic

/-!
What instructions are made of. A computation on a machine takes operands off the stacks and puts
results on them, and it can stop early: where an operand is missing, or where it looks at its
operands and does not apply to them. What it has taken until then stays taken, unless it puts it
back itself.
-/
namespace SwarmEvolution.Machine

/-- A computation on a machine that can stop early. -/
abbrev Act := OptionT (StateM Machine)

namespace Act

/-- The value of a computation, if it comes to its end, and the machine that it leaves behind. -/
def on (x : Act α) (m : Machine) : Option α × Machine := x.run.run m

def stop : Act α := failure

/-- Takes off the top of a stack; stops if there is none. -/
def pop (k : StackKind) : Act k.Element := do
  match (← get).pop? k with
  | some (a, m) =>
    set m
    return a
  | none => stop

/-- The top of a stack, which stays there; stops if there is none. -/
def peek (k : StackKind) : Act k.Element := do
  match ((← get).stack k).top? with
  | some a => return a
  | none => stop

/-- Takes off the top of a stack if there is one. -/
def popOrNone (k : StackKind) : Act (Option k.Element) := do
  match (← get).pop? k with
  | some (a, m) =>
    set m
    return some a
  | none => return none

/-- Takes off a number of elements, the topmost first. -/
def popMany (k : StackKind) : (count : Nat) → Act (List k.Element)
  | 0 => return []
  | count + 1 => do
    let a ← pop k
    let rest ← popMany k count
    return a :: rest

def put (k : StackKind) (a : k.Element) : Act Unit := modify (·.push k a)

/-- A draw from the machine's stream. -/
def sample (d : Sampling.Draw α) : Act α := modifyGet (·.draw d)

/-- Replaces the top of a stack by a value on the same stack or another one. -/
def unary (j k : StackKind) (f : j.Element → k.Element) : Act Unit := do
  let a ← pop j
  put k (f a)

/-- The same for the two topmost elements, of which the lower one is the left one. -/
def binary (j k : StackKind) (f : j.Element → j.Element → k.Element) : Act Unit := do
  let b ← pop j
  let a ← pop j
  put k (f a b)

/-- Rearranges a stack that has at least as many elements as this takes. -/
def rearrange (k : StackKind) (least : Nat) (f : Stack k.Element → Stack k.Element) : Act Unit := do
  let s := (← get).stack k
  if s.has least then modify (·.setStack k (f s)) else stop

variable (m : Machine)

@[simp] theorem on_pure (a : α) : (pure a : Act α).on m = (some a, m) := rfl
@[simp] theorem on_stop : (stop : Act α).on m = (none, m) := rfl
@[simp] theorem on_get : (get : Act Machine).on m = (some m, m) := rfl
@[simp] theorem on_modify (f : Machine → Machine) :
    (modify f : Act Unit).on m = (some (), f m) := rfl
@[simp] theorem on_put (k : StackKind) (a : k.Element) :
    (put k a).on m = (some (), m.push k a) := rfl
@[simp] theorem on_sample (d : Sampling.Draw α) :
    (sample d).on m = (some (m.draw d).1, (m.draw d).2) := rfl

theorem on_bind (x : Act α) (f : α → Act β) :
    (x >>= f).on m = match x.on m with
      | (some a, n) => (f a).on n
      | (none, n) => (none, n) := by
  simp only [on, OptionT.run_bind, Option.elimM, StateT.run_bind]
  rcases x.run.run m with ⟨_ | a, n⟩ <;> rfl

theorem on_pop (k : StackKind) :
    (pop k).on m = match m.pop? k with
      | some (a, n) => (some a, n)
      | none => (none, m) := by
  rw [pop, on_bind, on_get]
  dsimp only
  cases m.pop? k <;> rfl

end Act
end SwarmEvolution.Machine
