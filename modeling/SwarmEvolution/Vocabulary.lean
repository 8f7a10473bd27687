import SwarmEvolution.Code.Basic
import SwarmEvolution.Machine.Scalars
import SwarmEvolution.Text.Blank

/-!
The vocabulary of random programs: the instructions that the settings name, and places for random
constants. An entry of the settings is an instruction, `registered.` before a family for all of the
family, or a kind of constant before `.erc`.
-/
namespace SwarmEvolution

open Number Sampling

/-- One choice for a random atom. -/
inductive Slot where
  | instruction (i : Instruction)
  | integerConstant
  | floatConstant
  | booleanConstant
  deriving DecidableEq, Repr

namespace Slot

def families : List String := ["integer", "float", "boolean", "vector", "code", "exec", "input"]

/-- The families that have constants. -/
def constants : List (String × Slot) :=
  [("integer", .integerConstant), ("float", .floatConstant), ("boolean", .booleanConstant)]

/-- The instructions of a family, and its constant if it has one. -/
def ofFamily (family : String) : List Slot :=
  (Instruction.all.filter (·.family == family)).map .instruction
    ++ (constants.lookup family).toList

/-- What an entry without blanks around it stands for. -/
def ofEntry? (entry : String) : Option (List Slot) :=
  match families.find? (fun family => entry == "registered." ++ family) with
  | some family => some (ofFamily family)
  | none =>
    match constants.find? (fun (family, _) => entry == family ++ ".erc") with
    | some (_, slot) => some [slot]
    | none => (Instruction.ofName? entry).map fun i => [.instruction i]

/-- What a list of entries stands for; the first unknown one is a failure. -/
def ofEntries : List String → Except Failure (List Slot)
  | [] => .ok []
  | entry :: rest =>
    let entry := String.ofList (Text.trim entry.toList)
    match ofEntry? entry with
    | none => .error (.unknownInstruction entry)
    | some slots => (ofEntries rest).map (slots ++ ·)

end Slot

structure Vocabulary where
  settings : Settings.Machine
  /-- The choices, each once, in the order in which the settings come to them. -/
  slots : List Slot
  slots_ne_nil : slots ≠ []

namespace Vocabulary

def ofSettings (settings : Settings.Machine) : Except Failure Vocabulary :=
  match Slot.ofEntries settings.instructions with
  | .error f => .error f
  | .ok slots =>
    if h : slots.eraseDups ≠ [] then .ok ⟨settings, slots.eraseDups, h⟩
    else .error (.settings .emptyInstructionSet)

def size (v : Vocabulary) : Nat := v.slots.length

def isEmpty (v : Vocabulary) : Bool := v.slots.isEmpty

def instructions (v : Vocabulary) : List Instruction :=
  v.slots.filterMap fun
    | .instruction i => some i
    | _ => none

/-- A random float of the range; with a positive resolution it is moved down to the grid that
starts at the lower end. -/
def floatConstant (low high resolution : Float32) : Draw Float32 := do
  let raw := low + (← Draw.unit) * (high - low)
  return if 0 < resolution then low + ((raw - low) / resolution).floor * resolution else raw

def fill (v : Vocabulary) : Slot → Draw Atom
  | .instruction i => return .instruction i
  | .integerConstant => do
    let s := v.settings
    return .integer (← Machine.randomInteger s.minRandomInt s.maxRandomInt s.randomIntResolution)
  | .floatConstant => do
    let s := v.settings
    return .float (← floatConstant s.minRandomFloat s.maxRandomFloat s.randomFloatResolution)
  | .booleanConstant => return .boolean (← Draw.coin)

def randomAtom (v : Vocabulary) : Draw Code := do
  let i ← Draw.below v.size
  return .atom (← v.fill (v.slots[i]?.getD (v.slots.head v.slots_ne_nil)))

/-- Splits a number into at most `parts` positive ones. -/
def decompose (number : Nat) : (parts : Nat) → Draw (List Nat)
  | 0 | 1 => return [number]
  | parts + 2 => do
    if number ≤ 1 then return [number]
    let first := 1 + (← Draw.below number)
    if first = number then return [number]
    return first :: (← decompose (number - first) (parts + 1))

/-- Code of a given size whose lists are nested at most `depth` deep. -/
def codeWithin (v : Vocabulary) : (depth size : Nat) → Draw Code
  | 0, _ => v.randomAtom
  | depth + 1, size => do
    if size ≤ 1 then v.randomAtom
    else
      let parts ← decompose (size - 1) (size - 1)
      return .list (← Draw.each (v.codeWithin depth) parts)

/-- Random code with as many points as asked for, at least one. -/
def randomCode (v : Vocabulary) (size : Nat) : Draw Code := v.codeWithin size size

/-- A random program whose size is drawn up to a largest one. -/
def randomProgram (v : Vocabulary) (maxSize : Nat) : Draw Program := do
  let size := 1 + (← Draw.below (max maxSize 1))
  return .ofCode (← v.randomCode size)

end Vocabulary
end SwarmEvolution
