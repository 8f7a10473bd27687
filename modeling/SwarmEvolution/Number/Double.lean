import SwarmEvolution.Number.Single

/-!
Double-precision numbers for sums and means of single-precision ones. All of them are whole numbers
of the finest spacing, so an operation is exact on whole numbers and rounds once. The built-in
conversions between the two precisions have no definition to reason about; these have.
-/
namespace SwarmEvolution.Number

inductive Double where
  /-- The size counts the finest spacing, `2 ^ (-1074)`. -/
  | finite (negative : Bool) (size : Nat)
  | infinite (negative : Bool)
  | notANumber
  deriving DecidableEq, Repr

namespace Double

/-- The size nearest to a quotient among those that have no more digits than there are places, a
half to the even neighbour. -/
def nearest (num den : Nat) : Nat :=
  let unit := Nat.pow 2 ((num / den).log2 + 1 - Format.double.precision)
  Format.halfEven num (den * unit) * unit

/-- The first size that is beyond the range. -/
def limit : Nat := Nat.pow 2 (1024 + Format.double.lowest)

def ofSize (negative : Bool) (size : Nat) : Double :=
  if size < limit then .finite negative size else .infinite negative

/-- The same number in double precision. -/
def ofSingle (x : Float32) : Double :=
  let f := Format.single
  let bits := x.toBits.toNat
  let negative : Bool := f.signBit ≤ bits
  let magnitude := bits % f.signBit
  if f.infinity < magnitude then .notANumber
  else if magnitude = f.infinity then .infinite negative
  else
    let (m, e) := f.parts magnitude
    .finite negative (m * Nat.pow 2 (e + (Format.double.lowest - f.lowest)))

/-- The nearest single-precision number. -/
def toSingle : Double → Float32
  | .finite negative size => signed negative
      (Format.single.round size (Nat.pow 2 Format.double.lowest))
  | .infinite negative => signed negative Format.single.infinity
  | .notANumber => Float32.ofBits 0x7fc00000
where
  signed (negative : Bool) (magnitude : Nat) : Float32 :=
    Float32.ofBits (UInt32.ofNat ((if negative then Format.single.signBit else 0) + magnitude))

/-- The sum. Opposite numbers cancel to a zero without a sign. -/
def add : Double → Double → Double
  | .notANumber, _ | _, .notANumber => .notANumber
  | .infinite s, .infinite t => if s = t then .infinite s else .notANumber
  | .infinite s, .finite .. | .finite .., .infinite s => .infinite s
  | .finite s m, .finite t n =>
    if s = t then ofSize s (nearest (m + n) 1)
    else if n < m then ofSize s (nearest (m - n) 1)
    else if m < n then ofSize t (nearest (n - m) 1)
    else .finite false 0

def sum (start : Double) (xs : List Double) : Double := xs.foldl add start

/-- The quotient by a positive count, which is rounded too if it is large. -/
def dividedBy (x : Double) (count : Nat) : Double :=
  match x with
  | .finite s m => ofSize s (nearest m (nearest count 1))
  | .infinite s => .infinite s
  | .notANumber => .notANumber

end Double
end SwarmEvolution.Number
