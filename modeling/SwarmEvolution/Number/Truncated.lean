import SwarmEvolution.Number.Decimal
import SwarmEvolution.Number.Single
import SwarmEvolution.Number.Width

/-!
Double-precision numbers from decimals by way of 64 bits: digits are taken in as long as they fit, a
digit that does not fit is given up, and the value is computed from what was taken in by
double-precision operations. It may differ from the nearest number in its last places.
-/
namespace SwarmEvolution.Number

/-- The number of the digits taken in with one more behind them, if it fits 64 bits. -/
def append? (taken digit : Nat) : Option Nat :=
  let n := taken * 10 + digit
  if fitsUInt64 n then some n else none

/-- Takes in digits before the point. From the first that does not fit on they only count. -/
def takeWhole (taken : Nat) : List Nat → Decimal
  | [] => ⟨taken, 0⟩
  | digit :: rest =>
    match append? taken digit with
    | some taken => takeWhole taken rest
    | none => ⟨taken, rest.length + 1⟩

/-- Takes in digits after the point, up to the first that does not fit. -/
def takePlaces (d : Decimal) : List Nat → Decimal
  | [] => d
  | digit :: rest =>
    match append? d.digits digit with
    | some taken => takePlaces ⟨taken, d.exponent - 1⟩ rest
    | none => d

/-- The largest power of ten that is divided or multiplied by at once. -/
def largestPower : Nat := 308

def powerOfTen (n : Nat) : Float := doubleOfNumeral (.finite false ⟨1, n⟩)

/-- A number divided a number of times by the largest power, or until it is zero. -/
def divideDown : (times : Nat) → Float → Float
  | 0, x => x
  | times + 1, x => if x == 0 then x else divideDown times (x / powerOfTen largestPower)

/-- A number times a power of ten, nothing if it is too large. A power below the smallest is reached
by several divisions. -/
def scale? (x : Float) (power : Int) : Option Float :=
  if 0 ≤ power then
    if x == 0 then some x
    else if largestPower < power then none
    else
      let y := x * powerOfTen power.toNat
      if y.isInf then none else some y
  else
    let before := (-power).toNat - 1
    some (divideDown (before / largestPower) x / powerOfTen (before % largestPower + 1))

/-- The value of digits before and after the point and a power of ten, nothing if it is too
large. -/
def truncated? (whole places : List Nat) (power : Int) : Option Float :=
  let d := takePlaces (takeWhole 0 whole) places
  scale? (Float.ofNat d.digits) (d.exponent + power)

end SwarmEvolution.Number
