import SwarmEvolution.Code.Basic
import SwarmEvolution.Point
import SwarmEvolution.Sampling.Draw
import SwarmEvolution.Settings.Basic
import SwarmEvolution.Stack

/-!
The state of the stack machine. A frame holds one stack of each kind and is what a swarm member
keeps between its turns; a machine adds the values published to programs, the source of chance and
the limits it works under.
-/
namespace SwarmEvolution

/-- What the stack of a kind holds. -/
abbrev StackKind.Element : StackKind → Type
  | .integer => Int32
  | .float => Float32
  | .boolean => Bool
  | .vector => Point
  | .code => Code
  | .exec => Code

instance : (k : StackKind) → BEq k.Element
  | .integer => inferInstanceAs (BEq Int32)
  | .float => inferInstanceAs (BEq Float32)
  | .boolean => inferInstanceAs (BEq Bool)
  | .vector => inferInstanceAs (BEq Point)
  | .code => inferInstanceAs (BEq Code)
  | .exec => inferInstanceAs (BEq Code)

theorem StackKind.mem_all (k : StackKind) : k ∈ all := by cases k <;> simp [all]

structure Frame where
  integers : Stack Int32 := .empty
  floats : Stack Float32 := .empty
  booleans : Stack Bool := .empty
  vectors : Stack Point := .empty
  code : Stack Code := .empty
  exec : Stack Code := .empty

namespace Frame

def stack (f : Frame) : (k : StackKind) → Stack k.Element
  | .integer => f.integers
  | .float => f.floats
  | .boolean => f.booleans
  | .vector => f.vectors
  | .code => f.code
  | .exec => f.exec

def setStack (f : Frame) : (k : StackKind) → Stack k.Element → Frame
  | .integer, s => { f with integers := s }
  | .float, s => { f with floats := s }
  | .boolean, s => { f with booleans := s }
  | .vector, s => { f with vectors := s }
  | .code, s => { f with code := s }
  | .exec, s => { f with exec := s }

@[simp] theorem stack_setStack (f : Frame) (k : StackKind) (s : Stack k.Element) :
    (f.setStack k s).stack k = s := by cases k <;> rfl

theorem stack_setStack_of_ne (f : Frame) {j k : StackKind} (s : Stack k.Element) (h : j ≠ k) :
    (f.setStack k s).stack j = f.stack j := by cases j <;> cases k <;> first | rfl | contradiction

@[simp] theorem setStack_setStack (f : Frame) (k : StackKind) (s t : Stack k.Element) :
    (f.setStack k s).setStack k t = f.setStack k t := by cases k <;> rfl

@[simp] theorem setStack_stack (f : Frame) (k : StackKind) : f.setStack k (f.stack k) = f := by
  cases k <;> rfl

/-- Whether all operands are there. -/
def satisfies (f : Frame) (o : Operands) : Bool :=
  StackKind.all.all fun k => (f.stack k).has (o.on k)

theorem satisfies_iff {f : Frame} {o : Operands} :
    f.satisfies o ↔ ∀ k, o.on k ≤ (f.stack k).size := by
  simp only [satisfies, List.all_eq_true, Stack.has_iff]
  exact ⟨fun h k => h k k.mem_all, fun h k _ => h k⟩

end Frame

/-- A value published to programs. -/
inductive Published where
  | integer (n : Int32)
  | float (x : Float32)
  | boolean (b : Bool)
  | vector (p : Point)

/-- What a program can see of the swarm it moves in. -/
structure SwarmView where
  size : Nat
  /-- The best point of a member so far, or its current one. -/
  position? : (member : Nat) → (best : Bool) → Option Point

/-- The view from outside a swarm. -/
def SwarmView.empty : SwarmView := ⟨0, fun _ _ => none⟩

structure Machine where
  settings : Settings.Machine
  frame : Frame := {}
  /-- The published values. -/
  input : Stack Published := .empty
  random : Sampling.Stream
  /-- The range of `vector.randlimits`, normally the bounds of the problem. -/
  limits : Float32 × Float32
  /-- How many bodies of `vector.apply` and `vector.zip` are being run, one within the other. -/
  nesting : Nat := 0
  /-- The swarm member whose turn it is. -/
  current : Nat := 0

namespace Machine

def ofStream (settings : Settings.Machine) (random : Sampling.Stream) : Machine :=
  { settings, random, limits := (settings.minRandomFloat, settings.maxRandomFloat) }

def ofSeed (settings : Settings.Machine) (seed : UInt64) : Machine :=
  ofStream settings (.ofSeed seed)

/-- The length of vectors. -/
def dimensions (m : Machine) : Nat := m.settings.vectorDimensions

def stack (m : Machine) (k : StackKind) : Stack k.Element := m.frame.stack k

def setStack (m : Machine) (k : StackKind) (s : Stack k.Element) : Machine :=
  { m with frame := m.frame.setStack k s }

@[simp] theorem stack_setStack (m : Machine) (k : StackKind) (s : Stack k.Element) :
    (m.setStack k s).stack k = s := m.frame.stack_setStack k s

theorem stack_setStack_of_ne (m : Machine) {j k : StackKind} (s : Stack k.Element) (h : j ≠ k) :
    (m.setStack k s).stack j = m.stack j := m.frame.stack_setStack_of_ne s h

/-- Puts a value on the stack of a kind. -/
def push (m : Machine) (k : StackKind) (a : k.Element) : Machine :=
  m.setStack k ((m.stack k).push a)

/-- The top of a stack and the machine without it; nothing if the stack is empty. -/
def pop? (m : Machine) (k : StackKind) : Option (k.Element × Machine) :=
  (m.stack k).pop?.map fun (a, rest) => (a, m.setStack k rest)

def pushInteger (m : Machine) (n : Int32) : Machine := m.push .integer n
def pushFloat (m : Machine) (x : Float32) : Machine := m.push .float x
def pushBoolean (m : Machine) (b : Bool) : Machine := m.push .boolean b
def pushVector (m : Machine) (p : Point) : Machine := m.push .vector p
def pushCode (m : Machine) (c : Code) : Machine := m.push .code c
def pushExec (m : Machine) (c : Code) : Machine := m.push .exec c

/-- Pushes a published value onto the stack of its kind. -/
def pushPublished (m : Machine) : Published → Machine
  | .integer n => m.pushInteger n
  | .float x => m.pushFloat x
  | .boolean b => m.pushBoolean b
  | .vector p => m.pushVector p

/-- A draw from the machine's stream. -/
def draw (m : Machine) (d : Sampling.Draw α) : α × Machine :=
  let (a, random) := d m.random
  (a, { m with random })

/-- Exchanges the machine's stacks with another frame. -/
def swapFrame (m : Machine) (f : Frame) : Machine × Frame := ({ m with frame := f }, m.frame)

end Machine
end SwarmEvolution
