import SwarmEvolution.Machine.Act

/-!
Instructions on code: choice, combinators and counted loops on the code that is still to run, and
the taking apart and putting together of quoted code. Code that an instruction would put together
beyond the limit on points is not put together, and its parts go back where they were.
-/
namespace SwarmEvolution.Machine

open Act

/-- A loop that runs `body` with each index from `first` to `last` on the integer stack. -/
def rangeLoop (first last : Int32) (body : Code) : Code :=
  .list [.atom (.integer first), .atom (.integer last), .instruction (.exec .range), body]

/-- Puts `n` turns of a loop over `body` on the exec stack; a loop needs a positive count. -/
def countedLoop (wrap : Code → Code) : Act Unit := do
  if ((← get).stack .integer).top?.any (0 < ·) then
    let n ← pop .integer
    let body ← pop .exec
    put .exec (rangeLoop 0 (n - 1) (wrap body))
  else stop

def execOp : ExecOp → Act Unit
  | .choose => do
    let condition ← pop .boolean
    let a ← pop .exec
    let b ← pop .exec
    put .exec (if condition then a else b)
  | .k => binary .exec .exec fun _ a => a
  | .s => do
    let a ← pop .exec
    let b ← pop .exec
    let c ← pop .exec
    if (← get).settings.maxCodePoints < b.points + 2 * c.points + a.points + 1 then
      put .exec c
      put .exec b
      put .exec a
      stop
    else
      put .exec (Code.list [b, c])
      put .exec c
      put .exec a
  | .y => do
    let a ← pop .exec
    put .exec (Code.list [.instruction (.exec .y), a])
    put .exec a
  | .range => do
    let last ← pop .integer
    let index ← pop .integer
    let body ← pop .exec
    if index ≠ last then
      put .exec (rangeLoop (if index < last then index + 1 else index - 1) last body)
    put .integer index
    put .exec body
  | .count => countedLoop id
  | .times => countedLoop fun body => .list [.instruction (.stack .integer .pop), body]
  | .noop => pure ()

/-- Replaces the two topmost pieces of code, the lower one first, by what `f` makes of them. -/
def combineCode (f : Code → Code → List Code) : Act Unit := do
  let b ← pop .code
  let a ← pop .code
  if (← get).settings.maxCodePoints < a.points + b.points + 1 then
    put .code a
    put .code b
    stop
  else put .code (Code.list (f a b))

def unaryCode (f : Code → Code) : Act Unit := unary .code .code f
def askCode (f : Code → Bool) : Act Unit := unary .code .boolean f
def measureCode (f : Code → Nat) : Act Unit := unary .code .integer fun c => Int32.ofNat (f c)

def codeOp : CodeOp → Act Unit
  | .quote => unary .exec .code id
  | .run => do
    let c ← peek .code
    put .exec (Code.instruction (.stack .code .pop))
    put .exec c
  | .runTop => unary .code .exec id
  | .first => unaryCode fun
    | .list items => items.headD (.list [])
    | c => c
  | .rest => unaryCode fun
    | .list items => .list items.tail
    | _ => .list []
  | .cons => combineCode fun a b => a :: b.toItems
  | .list => combineCode fun a b => [a, b]
  | .append => combineCode fun a b => a.toItems ++ b.toItems
  | .isAtom => askCode fun c => !c.isList
  | .isEmpty => askCode fun
    | .list [] => true
    | _ => false
  | .length => measureCode fun c => c.toItems.length
  | .size => measureCode Code.points
  | .fromInteger => unary .integer .code fun n => .atom (.integer n)
  | .fromFloat => unary .float .code fun x => .atom (.float x)
  | .fromBoolean => unary .boolean .code fun b => .atom (.boolean b)
  | .choose => do
    let condition ← pop .boolean
    let otherwise ← pop .code
    let met ← pop .code
    put .exec (if condition then met else otherwise)

end SwarmEvolution.Machine
