/-!
The instruction set of the stack machine. An instruction is named by its family and a word within
it, and says how many operands it needs on each stack; it does nothing while they are missing.
-/
namespace SwarmEvolution

/-- The machine's stacks. -/
inductive StackKind where
  | integer | float | boolean | vector | code | exec
  deriving DecidableEq, Repr

/-- Operations that every stack has. -/
inductive StackOp where
  | dup | pop | swap | rot | flush | depth | yank | yankDup | shove | equal
  deriving DecidableEq, Repr

inductive IntegerOp where
  | add | sub | mul | div | mod | less | greater | min | max | abs | neg
  | fromFloat | fromBoolean | random
  deriving DecidableEq, Repr

inductive FloatOp where
  | add | sub | mul | div | mod | less | greater | min | max | abs | neg
  | sin | cos | tan | exp | ln | fromInteger | fromBoolean | random
  deriving DecidableEq, Repr

inductive BooleanOp where
  | and | or | xor | not | fromInteger | fromFloat | random
  deriving DecidableEq, Repr

/-- Operations on the code that is still to run. -/
inductive ExecOp where
  | choose | k | s | y | range | times | count | noop
  deriving DecidableEq, Repr

/-- Operations on quoted code. -/
inductive CodeOp where
  | quote | run | runTop | first | rest | cons | list | append | isAtom | isEmpty | length | size
  | fromInteger | fromFloat | fromBoolean | choose
  deriving DecidableEq, Repr

/-- Operations on the values published to a program. -/
inductive InputOp where
  | index | everything | depth
  deriving DecidableEq, Repr

inductive VectorOp where
  | get | set | fromFloats | toFloats | random | randomInLimits | randomInWidth | randomUnit
  | add | sub | mul | div | addScalar | subScalar | mulScalar | divScalar | dot | magnitude
  | addToComponent | scaleComponent | zip | apply | between | best | current
  deriving DecidableEq, Repr

inductive Instruction where
  | stack (kind : StackKind) (op : StackOp)
  | integer (op : IntegerOp)
  | float (op : FloatOp)
  | boolean (op : BooleanOp)
  | exec (op : ExecOp)
  | code (op : CodeOp)
  | input (op : InputOp)
  | vector (op : VectorOp)
  deriving DecidableEq, Repr

namespace StackKind

def all : List StackKind := [.integer, .float, .boolean, .vector, .code, .exec]

def name : StackKind → String
  | .integer => "integer"
  | .float => "float"
  | .boolean => "boolean"
  | .vector => "vector"
  | .code => "code"
  | .exec => "exec"

end StackKind

namespace StackOp

def all : List StackOp :=
  [.dup, .pop, .swap, .rot, .flush, .depth, .yank, .yankDup, .shove, .equal]

def word : StackOp → String
  | .dup => "dup"
  | .pop => "pop"
  | .swap => "swap"
  | .rot => "rot"
  | .flush => "flush"
  | .depth => "stackdepth"
  | .yank => "yank"
  | .yankDup => "yankdup"
  | .shove => "shove"
  | .equal => "="

end StackOp

namespace IntegerOp

def all : List IntegerOp :=
  [.add, .sub, .mul, .div, .mod, .less, .greater, .min, .max, .abs, .neg,
    .fromFloat, .fromBoolean, .random]

def word : IntegerOp → String
  | .add => "+"
  | .sub => "-"
  | .mul => "*"
  | .div => "/"
  | .mod => "%"
  | .less => "<"
  | .greater => ">"
  | .min => "min"
  | .max => "max"
  | .abs => "abs"
  | .neg => "neg"
  | .fromFloat => "fromfloat"
  | .fromBoolean => "fromboolean"
  | .random => "rand"

end IntegerOp

namespace FloatOp

def all : List FloatOp :=
  [.add, .sub, .mul, .div, .mod, .less, .greater, .min, .max, .abs, .neg,
    .sin, .cos, .tan, .exp, .ln, .fromInteger, .fromBoolean, .random]

def word : FloatOp → String
  | .add => "+"
  | .sub => "-"
  | .mul => "*"
  | .div => "/"
  | .mod => "%"
  | .less => "<"
  | .greater => ">"
  | .min => "min"
  | .max => "max"
  | .abs => "abs"
  | .neg => "neg"
  | .sin => "sin"
  | .cos => "cos"
  | .tan => "tan"
  | .exp => "exp"
  | .ln => "ln"
  | .fromInteger => "frominteger"
  | .fromBoolean => "fromboolean"
  | .random => "rand"

end FloatOp

namespace BooleanOp

def all : List BooleanOp := [.and, .or, .xor, .not, .fromInteger, .fromFloat, .random]

def word : BooleanOp → String
  | .and => "and"
  | .or => "or"
  | .xor => "xor"
  | .not => "not"
  | .fromInteger => "frominteger"
  | .fromFloat => "fromfloat"
  | .random => "rand"

end BooleanOp

namespace ExecOp

def all : List ExecOp := [.choose, .k, .s, .y, .range, .times, .count, .noop]

def word : ExecOp → String
  | .choose => "if"
  | .k => "k"
  | .s => "s"
  | .y => "y"
  | .range => "do*range"
  | .times => "do*times"
  | .count => "do*count"
  | .noop => "noop"

end ExecOp

namespace CodeOp

def all : List CodeOp :=
  [.quote, .run, .runTop, .first, .rest, .cons, .list, .append, .isAtom, .isEmpty, .length, .size,
    .fromInteger, .fromFloat, .fromBoolean, .choose]

def word : CodeOp → String
  | .quote => "quote"
  | .run => "do"
  | .runTop => "do*"
  | .first => "car"
  | .rest => "cdr"
  | .cons => "cons"
  | .list => "list"
  | .append => "append"
  | .isAtom => "atom"
  | .isEmpty => "null"
  | .length => "length"
  | .size => "size"
  | .fromInteger => "frominteger"
  | .fromFloat => "fromfloat"
  | .fromBoolean => "fromboolean"
  | .choose => "if"

end CodeOp

namespace InputOp

def all : List InputOp := [.index, .everything, .depth]

def word : InputOp → String
  | .index => "index"
  | .everything => "inall"
  | .depth => "stackdepth"

end InputOp

namespace VectorOp

def all : List VectorOp :=
  [.get, .set, .fromFloats, .toFloats, .random, .randomInLimits, .randomInWidth, .randomUnit,
    .add, .sub, .mul, .div, .addScalar, .subScalar, .mulScalar, .divScalar, .dot, .magnitude,
    .addToComponent, .scaleComponent, .zip, .apply, .between, .best, .current]

def word : VectorOp → String
  | .get => "get"
  | .set => "set"
  | .fromFloats => "fromfloats"
  | .toFloats => "tofloats"
  | .random => "rand"
  | .randomInLimits => "randlimits"
  | .randomInWidth => "randwidth"
  | .randomUnit => "unitrand"
  | .add => "+"
  | .sub => "-"
  | .mul => "*"
  | .div => "/"
  | .addScalar => "scalar+"
  | .subScalar => "scalar-"
  | .mulScalar => "scalar*"
  | .divScalar => "scalar/"
  | .dot => "dot"
  | .magnitude => "mag"
  | .addToComponent => "dim+"
  | .scaleComponent => "dim*"
  | .zip => "zip"
  | .apply => "apply"
  | .between => "between"
  | .best => "best"
  | .current => "current"

end VectorOp

/-- How many elements must be on each stack. -/
structure Operands where
  integer : Nat := 0
  float : Nat := 0
  boolean : Nat := 0
  vector : Nat := 0
  code : Nat := 0
  exec : Nat := 0
  deriving DecidableEq, Repr

namespace Operands

/-- How many elements one stack needs. -/
def on (o : Operands) : StackKind → Nat
  | .integer => o.integer
  | .float => o.float
  | .boolean => o.boolean
  | .vector => o.vector
  | .code => o.code
  | .exec => o.exec

/-- Raises the number of elements that one stack needs by `n`. -/
def add (o : Operands) (kind : StackKind) (n : Nat) : Operands :=
  match kind with
  | .integer => { o with integer := o.integer + n }
  | .float => { o with float := o.float + n }
  | .boolean => { o with boolean := o.boolean + n }
  | .vector => { o with vector := o.vector + n }
  | .code => { o with code := o.code + n }
  | .exec => { o with exec := o.exec + n }

end Operands

namespace Instruction

/-- All instructions, the operations of every stack first. -/
def all : List Instruction :=
  StackKind.all.flatMap (fun kind => StackOp.all.map (stack kind))
    ++ IntegerOp.all.map integer ++ FloatOp.all.map float ++ BooleanOp.all.map boolean
    ++ ExecOp.all.map exec ++ CodeOp.all.map code ++ InputOp.all.map input
    ++ VectorOp.all.map vector

/-- The word before the point of a name. -/
def family : Instruction → String
  | .stack kind _ => kind.name
  | .integer _ => "integer"
  | .float _ => "float"
  | .boolean _ => "boolean"
  | .exec _ => "exec"
  | .code _ => "code"
  | .input _ => "input"
  | .vector _ => "vector"

/-- The word after the point of a name. -/
def word : Instruction → String
  | .stack _ op => op.word
  | .integer op => op.word
  | .float op => op.word
  | .boolean op => op.word
  | .exec op => op.word
  | .code op => op.word
  | .input op => op.word
  | .vector op => op.word

def name (i : Instruction) : String := i.family ++ "." ++ i.word

def ofName? (name : String) : Option Instruction := all.find? (·.name == name)

/-- The operands of an instruction. Two more conditions are looked at when it runs:
`vector.fromfloats` needs a float per dimension, and `input.index` a published value. -/
def operands : Instruction → Operands
  | .stack kind op => match op with
    | .dup | .pop => Operands.add {} kind 1
    | .swap | .equal => Operands.add {} kind 2
    | .rot => Operands.add {} kind 3
    | .flush | .depth => {}
    | .yank | .yankDup | .shove => Operands.add { integer := 1 } kind 1
  | .integer op => match op with
    | .abs | .neg => { integer := 1 }
    | .fromFloat => { float := 1 }
    | .fromBoolean => { boolean := 1 }
    | .random => {}
    | _ => { integer := 2 }
  | .float op => match op with
    | .abs | .neg | .sin | .cos | .tan | .exp | .ln => { float := 1 }
    | .fromInteger => { integer := 1 }
    | .fromBoolean => { boolean := 1 }
    | .random => {}
    | _ => { float := 2 }
  | .boolean op => match op with
    | .and | .or | .xor => { boolean := 2 }
    | .not => { boolean := 1 }
    | .fromInteger => { integer := 1 }
    | .fromFloat => { float := 1 }
    | .random => {}
  | .exec op => match op with
    | .choose => { boolean := 1, exec := 2 }
    | .k => { exec := 2 }
    | .s => { exec := 3 }
    | .y => { exec := 1 }
    | .range => { integer := 2, exec := 1 }
    | .times | .count => { integer := 1, exec := 1 }
    | .noop => {}
  | .code op => match op with
    | .quote => { exec := 1 }
    | .cons | .list | .append => { code := 2 }
    | .fromInteger => { integer := 1 }
    | .fromFloat => { float := 1 }
    | .fromBoolean => { boolean := 1 }
    | .choose => { boolean := 1, code := 2 }
    | _ => { code := 1 }
  | .input op => match op with
    | .index => { integer := 1 }
    | .everything | .depth => {}
  | .vector op => match op with
    | .get => { vector := 1, integer := 1 }
    | .set => { vector := 1, integer := 1, float := 1 }
    | .fromFloats | .random | .randomInLimits | .randomUnit | .best | .current => {}
    | .toFloats | .magnitude => { vector := 1 }
    | .randomInWidth => { float := 1 }
    | .add | .sub | .mul | .div | .dot => { vector := 2 }
    | .addScalar | .subScalar | .mulScalar | .divScalar => { vector := 1, float := 1 }
    | .addToComponent | .scaleComponent => { vector := 1, float := 1, integer := 1 }
    | .zip => { vector := 2, exec := 1 }
    | .apply => { vector := 1, exec := 1 }
    | .between => { vector := 2, float := 1 }

end Instruction
end SwarmEvolution
