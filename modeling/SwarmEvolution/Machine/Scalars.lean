import SwarmEvolution.Machine.Act

/-!
Instructions on single values: rearrangements of a stack, arithmetic and logic, and the published
values. Of two operands the lower one is the left one.
-/
namespace SwarmEvolution.Machine

open Number Sampling Act

/-- Rearranges a stack at a depth that comes from the integers. -/
def atDepth (k : StackKind) (f : Stack k.Element → Int → Stack k.Element) : Act Unit := do
  let depth ← pop .integer
  rearrange k 1 (f · depth.toInt)

/-- The operations that every stack has. -/
def stackOp (k : StackKind) : StackOp → Act Unit
  | .dup => rearrange k 1 Stack.dup
  | .pop => discard (pop k)
  | .swap => rearrange k 2 Stack.swap
  | .rot => rearrange k 3 Stack.rot
  | .flush => rearrange k 0 fun _ => .empty
  | .depth => do put .integer (Int32.ofNat ((← get).stack k).size)
  | .yank => atDepth k Stack.yank
  | .yankDup => atDepth k Stack.yankDup
  | .shove => atDepth k Stack.shove
  | .equal => binary k .boolean fun a b => b == a

/-- The steps of a random integer's grid: how many there are in the range, at least one. -/
def integerSteps (low high resolution : Int32) : Nat :=
  let span := min (max (high.toInt - low.toInt) (-2147483648)) 2147483647
  (max (span.tdiv (max resolution.toInt 1)) 1).toNat

/-- A random integer of the range on the grid that starts at its lower end. -/
def randomInteger (low high resolution : Int32) : Draw Int32 := do
  let step ← Draw.small (integerSteps low high resolution)
  return low + Int32.ofNat step * max resolution 1

def compareIntegers (f : Int32 → Int32 → Bool) : Act Unit := binary .integer .boolean f

/-- A division, which does not apply to a zero on top. -/
def divideIntegers (f : Int32 → Int32 → Int32) : Act Unit := do
  if ((← get).stack .integer).top? = some 0 then stop else binary .integer .integer f

/-- Arithmetic wraps around at 32 bits; quotients are cut off toward zero. -/
def integerOp : IntegerOp → Act Unit
  | .add => binary .integer .integer (· + ·)
  | .sub => binary .integer .integer (· - ·)
  | .mul => binary .integer .integer (· * ·)
  | .div => divideIntegers (· / ·)
  | .mod => divideIntegers (· % ·)
  | .less => compareIntegers fun a b => a < b
  | .greater => compareIntegers fun a b => b < a
  | .min => binary .integer .integer fun a b => if b < a then b else a
  | .max => binary .integer .integer fun a b => if a < b then b else a
  | .abs => unary .integer .integer fun a => if a < 0 then -a else a
  | .neg => unary .integer .integer (- ·)
  | .fromFloat => unary .float .integer toInt32
  | .fromBoolean => unary .boolean .integer fun b => if b then 1 else 0
  | .random => do
    let s := (← get).settings
    put .integer (← sample (randomInteger s.minRandomInt s.maxRandomInt s.randomIntResolution))

def unaryFloat (f : Float32 → Float32) : Act Unit := unary .float .float f
def binaryFloat (f : Float32 → Float32 → Float32) : Act Unit := binary .float .float f
def compareFloats (f : Float32 → Float32 → Bool) : Act Unit := binary .float .boolean f

/-- A division, which does not apply to a zero of either sign on top. -/
def divideFloats (f : Float32 → Float32 → Float32) : Act Unit := do
  if ((← get).stack .float).top?.any (· == 0) then stop else binaryFloat f

/-- Results are clamped into the finite range. -/
def floatOp : FloatOp → Act Unit
  | .add => binaryFloat fun a b => clamp (a + b)
  | .sub => binaryFloat fun a b => clamp (a - b)
  | .mul => binaryFloat fun a b => clamp (a * b)
  | .div => divideFloats fun a b => clamp (a / b)
  | .mod => divideFloats fun a b => clamp (remainder a b)
  | .less => compareFloats fun a b => a < b
  | .greater => compareFloats fun a b => b < a
  | .min => binaryFloat minimum
  | .max => binaryFloat maximum
  | .abs => unaryFloat fun a => clamp a.abs
  | .neg => unaryFloat fun a => clamp (-a)
  | .sin => unaryFloat fun a => clamp (viaDouble Float.sin a)
  | .cos => unaryFloat fun a => clamp (viaDouble Float.cos a)
  | .tan => unaryFloat fun a => clamp (viaDouble Float.tan a)
  | .exp => unaryFloat fun a => clamp (viaDouble Float.exp a)
  | .ln => unaryFloat fun a => clamp (viaDouble Float.log a)
  | .fromInteger => unary .integer .float ofInt32
  | .fromBoolean => unary .boolean .float fun b => if b then 1 else 0
  | .random => do
    let s := (← get).settings
    let u ← sample Draw.unit
    put .float (clamp (s.minRandomFloat + u * (s.maxRandomFloat - s.minRandomFloat)))

def booleanOp : BooleanOp → Act Unit
  | .and => binary .boolean .boolean and
  | .or => binary .boolean .boolean or
  | .xor => binary .boolean .boolean xor
  | .not => unary .boolean .boolean not
  | .fromInteger => unary .integer .boolean (· != 0)
  | .fromFloat => unary .float .boolean (· != 0)
  | .random => do put .boolean (← sample Draw.coin)

/-- A published value is addressed from the first one; an index out of range means the nearer end
of it. -/
def inputOp : InputOp → Act Unit
  | .index => do
    let input := (← get).input
    if input.isEmpty then stop
    else
      let n ← pop .integer
      match input.get? (min n.toInt.toNat (input.size - 1)) with
      | some value => modify (·.pushPublished value)
      | none => stop
  | .everything => modify fun m => m.input.toList.foldl pushPublished m
  | .depth => do put .integer (Int32.ofNat (← get).input.size)

end SwarmEvolution.Machine
