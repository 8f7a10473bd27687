import SwarmEvolution.Number.Binary

/-!
Decimal numerals: the fewest digits that read back to a binary number, the reading of numerals, and
the two ways to lay digits out. `Format.shortest` looks for the coarsest decimal grid that has a
point which reads back and takes the nearer of the value's two neighbours there; the finest grid
holds the value itself, so the search always ends with a hit.
-/
namespace SwarmEvolution.Number

/-- A decimal number, which is `digits * 10 ^ exponent`. -/
structure Decimal where
  digits : Nat
  exponent : Int
  deriving BEq, DecidableEq, Repr

/-- What a numeral can stand for. Even what is no number has a sign, which is never written. -/
inductive Numeral where
  | finite (negative : Bool) (size : Decimal)
  | infinite (negative : Bool)
  | undefined (negative : Bool)
  deriving BEq, DecidableEq, Repr

def digitCount (n : Nat) : Nat := (Nat.toDigits 10 n).length

namespace Decimal

/-- Numerator and denominator of the value. -/
def fraction (d : Decimal) : Nat × Nat :=
  (d.digits * Nat.pow 10 d.exponent.toNat, Nat.pow 10 (-d.exponent).toNat)

/-- How far the leading digit stands left of the point; negative numbers count zeros after it. -/
def point (d : Decimal) : Int := digitCount d.digits + d.exponent

/-- The same value without trailing zeros among the digits. -/
def trim (d : Decimal) : Decimal :=
  if d.digits = 0 then ⟨0, 0⟩ else go (digitCount d.digits) d
where
  go : Nat → Decimal → Decimal
    | 0, d => d
    | n + 1, d => if d.digits % 10 = 0 then go n ⟨d.digits / 10, d.exponent + 1⟩ else d

end Decimal

namespace Format

/-- The magnitude nearest to a decimal. A leading digit far outside the format's range decides
before any power of ten is computed. -/
def ofDecimal (f : Format) (d : Decimal) : Nat :=
  if d.digits = 0 then 0
  else if f.lowest < d.point then f.infinity
  else if d.point < -f.lowest then 0
  else f.round d.fraction.1 d.fraction.2

/-- All digits of a finite magnitude. -/
def exact (f : Format) (magnitude : Nat) : Decimal :=
  let (m, e) := f.parts magnitude
  ⟨m * Nat.pow 2 (e - f.lowest) * Nat.pow 5 (f.lowest - e), -((f.lowest - e : Nat) : Int)⟩

/-- The first decimal that reads back to `magnitude` when at most `drop` digits of its exact
expansion are given up, as many as possible. The nearer neighbour comes first; of two equally near
ones the larger. -/
def shorten (f : Format) (magnitude : Nat) (whole : Decimal) : Nat → Decimal
  | 0 => whole
  | drop + 1 =>
    let unit := Nat.pow 10 (drop + 1)
    let below : Decimal := ⟨whole.digits / unit, whole.exponent + (drop + 1 : Nat)⟩
    let above : Decimal := { below with digits := below.digits + 1 }
    let (near, far) :=
      if 2 * (whole.digits % unit) < unit then (below, above) else (above, below)
    if f.ofDecimal near = magnitude then near
    else if f.ofDecimal far = magnitude then far
    else f.shorten magnitude whole drop

/-- The fewest digits that read back to a finite magnitude. -/
def shortest (f : Format) (magnitude : Nat) : Decimal :=
  let whole := f.exact magnitude
  (f.shorten magnitude whole (digitCount whole.digits - 1)).trim

/-- The value of a bit pattern in its shortest digits. -/
def numeral (f : Format) (bits : Nat) : Numeral :=
  let magnitude := bits % f.signBit
  let negative := f.signBit ≤ bits
  if magnitude < f.infinity then .finite negative (f.shortest magnitude)
  else if magnitude = f.infinity then .infinite negative
  else .undefined negative

/-- The bit pattern nearest to a numeral. -/
def ofNumeral (f : Format) : Numeral → Nat
  | .finite negative size => (if negative then f.signBit else 0) + f.ofDecimal size
  | .infinite negative => (if negative then f.signBit else 0) + f.infinity
  | .undefined negative => (if negative then f.signBit else 0) + f.infinity + f.binade / 2

end Format

/-- How a numeral is laid out. -/
structure Layout where
  /-- The values written without an exponent: those from `10 ^ low` up to but not including
  `10 ^ high`; `none` when all are. -/
  positional : Option (Int × Int)
  /-- Whether a whole number keeps one decimal place. -/
  pointed : Bool
  undefined : String := "NaN"

namespace Layout

/-- Literals in program text and answers. -/
def literal : Layout := { positional := some (-4, 16), pointed := true }

/-- Numbers in files of start points. -/
def plain : Layout := { positional := none, pointed := false }

/-- Numbers in saved settings. -/
def settings : Layout := { positional := none, pointed := true, undefined := "nan" }

private def zeros (n : Nat) : List Char := List.replicate n '0'

/-- Digits with a point at `point` places after the first of them. -/
def fixed (pointed : Bool) (digits : List Char) (point : Int) : List Char :=
  if point ≤ 0 then '0' :: '.' :: zeros (-point).toNat ++ digits
  else if digits.length ≤ point.toNat then
    digits ++ zeros (point.toNat - digits.length) ++ if pointed then ['.', '0'] else []
  else digits.take point.toNat ++ '.' :: digits.drop point.toNat

/-- One digit, the others after a point, and the power of ten. -/
def scientific (digits : List Char) (point : Int) : List Char :=
  let tail := if digits.length ≤ 1 then [] else '.' :: digits.drop 1
  digits.take 1 ++ tail ++ 'e' :: (toString (point - 1)).toList

def isPositional (l : Layout) (d : Decimal) : Bool :=
  match l.positional with
  | none => true
  | some (low, high) => d.digits = 0 || low < d.point && d.point ≤ high

/-- The text of a value given by its digits. -/
def size (l : Layout) (d : Decimal) : List Char :=
  let digits := Nat.toDigits 10 d.digits
  if l.isPositional d then fixed l.pointed digits d.point else scientific digits d.point

def render (l : Layout) : Numeral → String
  | .finite negative d => String.ofList ((if negative then ['-'] else []) ++ l.size d)
  | .infinite negative => if negative then "-inf" else "inf"
  | .undefined _ => l.undefined

end Layout

namespace Numeral

/-- The value of a run of decimal digits. -/
def digitsValue (cs : List Char) : Nat :=
  cs.foldl (fun n c => n * 10 + (c.toNat - '0'.toNat)) 0

private def lower (cs : List Char) : String := String.ofList (cs.map Char.toLower)

/-- An optional sign and the characters after it. -/
def splitSign : List Char → Bool × List Char
  | '-' :: cs => (true, cs)
  | '+' :: cs => (false, cs)
  | cs => (false, cs)

/-- The exponent part: nothing, or `e` with an optional sign and at least one digit. -/
def exponent? : List Char → Option Int
  | [] => some 0
  | c :: cs =>
    let (negative, digits) := splitSign cs
    if c.toLower = 'e' && !digits.isEmpty && digits.all Char.isDigit then
      let n : Int := digitsValue digits
      some (if negative then -n else n)
    else none

/-- Digits with an optional point, at least one digit, and an optional exponent. -/
def decimal? (cs : List Char) : Option Decimal := do
  let whole := cs.takeWhile Char.isDigit
  let rest := cs.dropWhile Char.isDigit
  let (places, rest) := match rest with
    | '.' :: r => (r.takeWhile Char.isDigit, r.dropWhile Char.isDigit)
    | r => ([], r)
  if whole.isEmpty && places.isEmpty then none
  else
    let e ← exponent? rest
    some ⟨digitsValue (whole ++ places), e - places.length⟩

/-- Reads a numeral: an optional sign, then digits or, in any case of letters, `inf`, `infinity`
or `nan`. -/
def read? (text : List Char) : Option Numeral :=
  let (negative, cs) := splitSign text
  match lower cs with
  | "inf" | "infinity" => some (.infinite negative)
  | "nan" => some (.undefined negative)
  | _ => (decimal? cs).map (.finite negative)

end Numeral
end SwarmEvolution.Number
