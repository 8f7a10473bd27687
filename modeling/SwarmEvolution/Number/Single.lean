import SwarmEvolution.Number.Decimal

/-!
Single-precision numbers as programs and optimisers compute with them: results are clamped into the
finite range, comparison is partial as usual, and `rank` is the total order of bit patterns, which
also places the values that are not numbers.
-/
namespace SwarmEvolution.Number

/-- The largest finite number. -/
def largest : Float32 := Float32.ofBits 0x7f7fffff

/-- What a result below the finite range becomes; `1 - largest` rounds to the same number. -/
def lowerClamp : Float32 := -largest

/-- The error charged for a point outside the bounds. -/
def outOfBoundsError : Float32 := largest

/-- The distance that stands in for one that is infinite or not a number. -/
def unreachable : Float := 1e99

/-- A finite number is itself, and what is no number is `fallback`. -/
def clampOr (x fallback : Float32) : Float32 :=
  if x.isFinite then x
  else if x.isNaN then fallback
  else if x < 0 then lowerClamp
  else largest

/-- A finite number is itself, an infinity the end of the range it lies beyond, and what is no
number becomes zero. -/
def clamp (x : Float32) : Float32 := clampOr x 0

theorem isFinite_clampOr (x : Float32) {fallback : Float32} (h : fallback.isFinite) :
    (clampOr x fallback).isFinite := by
  unfold clampOr
  split
  · assumption
  · split
    · exact h
    · split <;> decide

/-- The place of a bit pattern in the total order: negative patterns that are no numbers, numbers
in their order with `-0.0` before `0.0`, other patterns that are no numbers. -/
def rank (bits : UInt32) : Int :=
  let sign := Format.single.signBit
  if bits.toNat < sign then bits.toNat else -(bits.toNat - sign : Nat) - 1

/-- The first label whose rank is lowest. -/
def lowest? : List (ι × Int) → Option ι
  | [] => none
  | (i, r) :: rest => some (go i r rest)
where
  go (best : ι) (rank : Int) : List (ι × Int) → ι
    | [] => best
    | (i, r) :: rest => if r < rank then go i r rest else go best rank rest

/-- The smaller of two numbers. A value that is no number gives way to the other, and of two equal
ones, which zeros of either sign are, the second is taken. -/
def minimum (x y : Float32) : Float32 :=
  if x < y || y.isNaN then x else y

/-- The larger of two numbers, under the same rules as `minimum`. -/
def maximum (x y : Float32) : Float32 :=
  if y < x || y.isNaN then x else y

/-- The remainder of a division whose quotient is cut off toward zero. It is exact and takes the
sign of `x`. -/
def remainder (x y : Float32) : Float32 :=
  if !x.isFinite || y.isNaN || y == 0 then 0 / 0
  else if !y.isFinite then x
  else
    let f := Format.single
    let bits := x.toBits.toNat
    let scaled (bits : Nat) : Nat := let (m, e) := f.parts (bits % f.signBit); m * Nat.pow 2 e
    let rest := f.round (scaled bits % scaled y.toBits.toNat) (Nat.pow 2 f.lowest)
    Float32.ofBits (UInt32.ofNat ((if f.signBit ≤ bits then f.signBit else 0) + rest))

/-- The number nearest to an integer, a half to the even neighbour. -/
def ofInt32 (n : Int32) : Float32 :=
  let f := Format.single
  let size := f.round n.toInt.natAbs 1
  Float32.ofBits (UInt32.ofNat ((if n < 0 then f.signBit else 0) + size))

/-- A number cut off toward zero; one beyond the range gives its nearer end and no number zero. -/
def toInt32 (x : Float32) : Int32 := x.toInt32

/-- A number cut off toward zero as a word of 64 bits would have it; one beyond the range gives its
nearer end and no number zero. -/
def truncate (x : Float32) : Int :=
  if x < 0 then -(min (-x).toUInt64.toNat (Nat.pow 2 63) : Nat)
  else (min x.toUInt64.toNat (Nat.pow 2 63 - 1) : Nat)

/-- A double-precision function at single precision: widened, applied and rounded once. -/
def viaDouble (f : Float → Float) (x : Float32) : Float32 := (f x.toFloat).toFloat32

/-- Sums start at `-0.0`, the neutral element of addition. -/
def sum (xs : List Float32) : Float32 := xs.foldl (· + ·) (-0.0)

/-- The double-precision sum, which starts at `-0.0` too. -/
def sumDouble (xs : List Float) : Float := xs.foldl (· + ·) (-0.0)

/-- The number nearest to a numeral. -/
def ofNumeral (n : Numeral) : Float32 := Float32.ofBits (UInt32.ofNat (Format.single.ofNumeral n))

/-- The double-precision number nearest to a numeral. -/
def doubleOfNumeral (n : Numeral) : Float := Float.ofBits (UInt64.ofNat (Format.double.ofNumeral n))

/-- Reads a number. -/
def read? (text : String) : Option Float32 := (Numeral.read? text.toList).map ofNumeral

/-- Reads a double-precision number. -/
def readDouble? (text : String) : Option Float := (Numeral.read? text.toList).map doubleOfNumeral

/-- The text of a number in a layout. -/
def render (l : Layout) (x : Float32) : String := l.render (Format.single.numeral x.toBits.toNat)

/-- The text of a double-precision number in a layout. -/
def renderDouble (l : Layout) (x : Float) : String :=
  l.render (Format.double.numeral x.toBits.toNat)

end SwarmEvolution.Number
