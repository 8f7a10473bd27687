import SwarmEvolution.Machine.Act

/-!
Instructions on vectors, which are points of the search space. `apply` and `zip` run code once per
component; how a body is run is a parameter here and is settled in `Machine.Run`.
-/
namespace SwarmEvolution.Machine

open Number Sampling Act

/-- A random vector whose components `f` makes of numbers from zero to one. -/
def randomVector (f : Float32 → Float32) : Act Point := do
  let us ← sample (Draw.times (← get).dimensions Draw.unit)
  return us.map fun u => clamp (f u)

/-- A random vector with components from `low` to `high`. -/
def randomBetween (low high : Float32) : Act Point :=
  let range := high - low
  randomVector fun u => u * range + low

/-- The point of length one in the direction of `p`. -/
def direction (p : Point) : Point :=
  let length := p.euclidean
  p.map fun x => clamp (x.toFloat / length).toFloat32

/-- An index wrapped into the range of positions of a vector. -/
def wrapIndex (index : Int32) (p : Point) : Nat := (index.toInt.emod p.length).toNat

def binaryVector (f : Float32 → Float32 → Float32) : Act Unit :=
  binary .vector .vector (List.zipWith fun x y => clamp (f x y))

def scalarVector (f : Float32 → Float32 → Float32) : Act Unit := do
  let p ← pop .vector
  let s ← pop .float
  put .vector (p.map fun x => clamp (f x s))

/-- Pushes a copy of the top vector in which one component is changed. -/
def componentVector (f : Float32 → Float32 → Float32) : Act Unit := do
  let p ← peek .vector
  let c ← pop .float
  let index ← pop .integer
  put .vector (p.modify (index.toInt.natAbs % p.length) fun x => clamp (f x c))

/-- Takes one float per dimension; the topmost becomes the last component. -/
def vectorFromFloats : Act Unit := do
  let m ← get
  if (m.stack .float).has m.dimensions then
    let xs ← popMany .float m.dimensions
    put .vector xs.reverse
  else stop

def vectorToFloats : Act Unit := do
  let p ← pop .vector
  modify fun m => m.setStack .float ((m.stack .float).pushAll p)

/-- Pushes a swarm member's point. The integer stack names the member, counted around the swarm;
without an index, or with a negative one, it is the member whose turn it is. -/
def swarmPosition (view : SwarmView) (best : Bool) : Act Unit := do
  if view.size = 0 then stop
  else
    let index := ((← popOrNone .integer).map Int32.toInt).getD (-1)
    let current := (← get).current
    let member := if 0 ≤ index then index.toNat else current
    match view.position? (member % view.size) best with
    | some p => put .vector p
    | none => stop

/-- The machine with empty code and exec stacks. -/
def withoutCode (m : Machine) : Machine :=
  { m with frame.exec := .empty, frame.code := .empty }

/-- Runs a body for one component: pushes it, then the other one if there is one, runs the body, and
takes the top float, or zero, for the result. Code that the body leaves behind is thrown away. -/
def onComponent (runBody : Machine → Machine) (x : Float32) (other : Option Float32) (m : Machine) :
    Float32 × Machine :=
  let m := m.pushFloat x
  let m := runBody (other.elim m m.pushFloat)
  let (value, m) := (m.pop? .float).getD (0, m)
  (value, m.withoutCode)

/-- Runs a body for one component of `firsts` after another, and for those of `seconds` along with
them. -/
def eachComponent (runBody : Machine → Machine) :
    (firsts seconds : Point) → Machine → Point × Machine
  | [], _, m => ([], m)
  | x :: firsts, seconds, m =>
    let (value, m) := onComponent runBody x seconds.head? m
    let (rest, m) := eachComponent runBody firsts seconds.tail m
    (value :: rest, m)

/-- Runs the next piece of code once per component, with empty code and exec stacks, and pushes
the vector of the results. The stacks put aside come back afterwards. -/
def mapComponents (runBody : Machine → Code → Machine) (firsts seconds : Point) (body : Code)
    (m : Machine) : Machine :=
  let inner := { m.withoutCode with nesting := m.nesting + 1 }
  let (result, after) := eachComponent (runBody · body) firsts seconds inner
  { after with
    frame.exec := m.frame.exec
    frame.code := m.frame.code
    nesting := after.nesting - 1 }.pushVector result

/-- Applies the next piece of code to the top vector, or when `paired` to the two topmost ones.
Nothing happens at the deepest nesting. -/
def higherOrder (runBody : Machine → Code → Machine) (paired : Bool) : Act Unit := do
  let m ← get
  if m.settings.maxNestingDepth ≤ m.nesting then stop
  else
    let firsts ← pop .vector
    let seconds ← if paired then pop .vector else pure []
    let body ← pop .exec
    modify (mapComponents runBody firsts seconds body)

/-- The component of the top vector at a wrapped index, which stays on its stack. -/
def getComponent : Act Unit := do
  let index ← pop .integer
  let p ← peek .vector
  match p[wrapIndex index p]? with
  | some x => put .float x
  | none => stop

def setComponent : Act Unit := do
  let p ← pop .vector
  let index ← pop .integer
  let x ← pop .float
  put .vector (p.set (wrapIndex index p) x)

/-- A blend that starts at the lower vector and reaches the top one at one. -/
def blend : Act Unit := do
  let b ← pop .vector
  let a ← pop .vector
  let f ← pop .float
  put .vector (List.zipWith (fun x y => clampOr (x + f * (y - x)) x) a b)

def dot (a b : Point) : Float32 := clamp (sum (List.zipWith (· * ·) a b))

def vectorOp (view : SwarmView) (runBody : Machine → Code → Machine) : VectorOp → Act Unit
  | .get => getComponent
  | .set => setComponent
  | .fromFloats => vectorFromFloats
  | .toFloats => vectorToFloats
  | .random => do
    let s := (← get).settings
    put .vector (← randomBetween s.minRandomFloat s.maxRandomFloat)
  | .randomInLimits => do
    let limits := (← get).limits
    put .vector (← randomBetween limits.1 limits.2)
  | .randomInWidth => do
    let width ← pop .float
    put .vector (← randomVector fun u => u * 2 * width - width)
  | .randomUnit => do
    let s := (← get).settings
    put .vector (direction (← randomBetween s.minRandomFloat s.maxRandomFloat))
  | .add => binaryVector (· + ·)
  | .sub => binaryVector (· - ·)
  | .mul => binaryVector (· * ·)
  | .div => binaryVector (· / ·)
  | .addScalar => scalarVector (· + ·)
  | .subScalar => scalarVector (· - ·)
  | .mulScalar => scalarVector (· * ·)
  | .divScalar => scalarVector (· / ·)
  | .dot => binary .vector .float dot
  | .magnitude => unary .vector .float Point.magnitude
  | .addToComponent => componentVector (· + ·)
  | .scaleComponent => componentVector (· * ·)
  | .zip => higherOrder runBody true
  | .apply => higherOrder runBody false
  | .between => blend
  | .best => swarmPosition view true
  | .current => swarmPosition view false

end SwarmEvolution.Machine
