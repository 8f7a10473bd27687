import SwarmEvolution.Failure
import SwarmEvolution.Problem.Basic
import SwarmEvolution.Text.Blank

/-!
Benchmark functions of any dimension. They are computed in double precision; each has its optimum at
the origin and is raised there to a value of its own, which the error takes off again.
-/
namespace SwarmEvolution

inductive Benchmark where
  | sphere
  | rastrigin
  | rosenbrock
  | ackley
  | griewank
  /-- The sum of the squared sums of leading coordinates. -/
  | schwefel
  deriving DecidableEq, Repr

namespace Benchmark

open Number

def all : List Benchmark := [.sphere, .rastrigin, .rosenbrock, .ackley, .griewank, .schwefel]

def name : Benchmark → String
  | sphere => "sphere"
  | rastrigin => "rastrigin"
  | rosenbrock => "rosenbrock"
  | ackley => "ackley"
  | griewank => "griewank"
  | schwefel => "schwefel"

/-- Blanks around a name and the case of its letters do not matter. -/
def ofName (name : String) : Except Failure Benchmark :=
  let wanted := String.ofList ((Text.trim name.toList).map Char.toLower)
  match all.find? (·.name == wanted) with
  | some b => .ok b
  | none => .error (.problem (.unknown name))

/-- The bounds, the same in every dimension. -/
def bounds : Benchmark → Interval Float32
  | sphere | rosenbrock | schwefel => ⟨-100, 100⟩
  | rastrigin => ⟨-5, 5⟩
  | ackley => ⟨-32, 32⟩
  | griewank => ⟨-600, 600⟩

/-- The value at the optimum. -/
def optimum : Benchmark → Float
  | sphere | schwefel => -450
  | rosenbrock => 390
  | rastrigin => -330
  | ackley => -140
  | griewank => -180

def fullTurn : Float := 2 * 3.141592653589793

def euler : Float := 2.718281828459045

/-- The sums of the first one, two, three and more numbers. -/
def prefixSums (start : Float) : List Float → List Float
  | [] => []
  | x :: rest => (start + x) :: prefixSums (start + x) rest

/-- The function with value zero at the origin. -/
def shape (b : Benchmark) (x : List Float) : Float :=
  let squares := sumDouble (x.map fun v => v * v)
  match b with
  | sphere => squares
  | rastrigin => sumDouble (x.map fun v => v * v - 10 * (fullTurn * v).cos + 10)
  | rosenbrock =>
    sumDouble (List.zipWith (fun v w =>
      let (a, b) := (v + 1, w + 1)
      let c := a * a - b
      let d := a - 1
      100 * (c * c) + d * d) x x.tail)
  | ackley =>
    if x.isEmpty then 0
    else
      let n := Float.ofNat x.length
      let cosines := sumDouble (x.map fun v => (fullTurn * v).cos) / n
      let decay := (-0.2 * (squares / n).sqrt).exp * -20
      decay - cosines.exp + 20 + euler
  | griewank =>
    let factors := x.zipIdx.map fun (v, i) => (v / (Float.ofNat (i + 1)).sqrt).cos
    squares / 4000 - factors.foldl (· * ·) 1 + 1
  | schwefel => sumDouble ((prefixSums 0 x).map fun s => s * s)

def valueDouble (b : Benchmark) (x : Point) : Float := b.shape (x.map Float32.toFloat) + b.optimum

/-- The value of a point. -/
def value (b : Benchmark) (x : Point) : Float32 := (b.valueDouble x).toFloat32

/-- The problem of minimising a benchmark in a number of dimensions. -/
def problem (b : Benchmark) (dimensions : Nat) : Problem where
  name := b.name
  dimensions := dimensions
  bound _ := b.bounds
  error x := (b.valueDouble x - b.optimum).toFloat32

end Benchmark
end SwarmEvolution
