import SwarmEvolution.Machine.Control
import SwarmEvolution.Machine.Scalars
import SwarmEvolution.Machine.Vectors

/-!
Running code. A step takes the next piece of code off the exec stack: a list puts its items there, a
value goes to the stack of its kind, an instruction is performed. A run takes a limited number of
steps and can be continued from where it stopped. Bodies of `vector.apply` and `vector.zip` are run
by the same steps one level further down, so `depth`, the number of levels left, bounds the
recursion.
-/
namespace SwarmEvolution.Machine

variable (view : SwarmView)

/-- What an instruction does when its operands are there. -/
def act (runBody : Machine → Code → Machine) : Instruction → Act Unit
  | .stack kind op => stackOp kind op
  | .integer op => integerOp op
  | .float op => floatOp op
  | .boolean op => booleanOp op
  | .exec op => execOp op
  | .code op => codeOp op
  | .input op => inputOp op
  | .vector op => vectorOp view runBody op

/-- Performs an instruction, or nothing while its operands are missing. -/
def performWith (runBody : Machine → Code → Machine) (m : Machine) (i : Instruction) : Machine :=
  if m.frame.satisfies i.operands then ((act view runBody i).on m).2 else m

def stepWith (runBody : Machine → Code → Machine) (m : Machine) : Code → Machine
  | .list items => { m with frame.exec := ⟨items ++ m.frame.exec.items⟩ }
  | .atom (.instruction i) => performWith view runBody m i
  | .atom (.integer n) => m.pushInteger n
  | .atom (.float x) => m.pushFloat x
  | .atom (.boolean b) => m.pushBoolean b

/-- Steps until the limit is used up or no code is left, and what is left of the limit. -/
def runWith (runBody : Machine → Code → Machine) : (limit : Nat) → Machine → Machine × Nat
  | 0, m => (m, 0)
  | limit + 1, m =>
    match m.pop? .exec with
    | none => (m, limit + 1)
    | some (c, m) => runWith runBody limit (stepWith view runBody m c)

/-- Runs a body with `depth` levels left: a list as a program of its own, an instruction on the
spot. Other atoms do nothing. -/
def runBody : (depth : Nat) → Machine → Code → Machine
  | 0, m, _ => m
  | depth + 1, m, body =>
    match body with
    | .list _ =>
      (runWith view (runBody depth) m.settings.nestedExecutionLimit (m.pushExec body)).1
    | .atom (.instruction i) => performWith view (runBody depth) m i
    | .atom _ => m

/-- The levels that a machine has left. -/
def levels (m : Machine) : Nat := m.settings.maxNestingDepth - m.nesting

def perform (m : Machine) (i : Instruction) : Machine :=
  performWith view (runBody view m.levels) m i

def step (m : Machine) (c : Code) : Machine := stepWith view (runBody view m.levels) m c

/-- Continues with the code on the exec stack; also gives the steps taken. -/
def run (limit : Nat) (m : Machine) : Machine × Nat :=
  let (after, left) := runWith view (runBody view m.levels) limit m
  (after, limit - left)

/-- Puts code on the exec stack and runs. -/
def executeCode (c : Code) (limit : Nat) (m : Machine) : Machine × Nat :=
  m.pushExec c |>.run view limit

def execute (p : Program) (limit : Nat) (m : Machine) : Machine × Nat :=
  executeCode view p.toCode limit m

end SwarmEvolution.Machine
