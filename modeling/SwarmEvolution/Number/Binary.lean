/-!
Binary floating-point formats as bit patterns. A magnitude is the number that the bits below the
sign bit spell; its order is the order of the values. `Format.parts` takes a magnitude apart,
`Format.round` finds the magnitude nearest to a quotient of natural numbers, ties to the even one.
Everything is natural-number arithmetic, so that printing and reading can be reasoned about.
-/
namespace SwarmEvolution.Number

/-- A format with `precision` significant bits whose finest spacing is `2 ^ (-lowest)`. -/
structure Format where
  precision : Nat
  lowest : Nat
  /-- All bits, the sign bit among them. -/
  width : Nat

namespace Format

def single : Format := ⟨24, 149, 32⟩
def double : Format := ⟨53, 1074, 64⟩

/-- The number of values with one exponent. -/
def binade (f : Format) : Nat := Nat.pow 2 (f.precision - 1)

/-- The magnitude of infinity; larger ones are not numbers. -/
def infinity (f : Format) : Nat := (Nat.pow 2 (f.width - f.precision) - 1) * f.binade

/-- The bit pattern's sign bit, as a number. -/
def signBit (f : Format) : Nat := Nat.pow 2 (f.width - 1)

/-- A pair `(m, e)` such that the magnitude stands for `m * 2 ^ e / 2 ^ lowest`. -/
def parts (f : Format) (magnitude : Nat) : Nat × Nat :=
  let exponent := magnitude / f.binade - 1
  (magnitude - exponent * f.binade, exponent)

/-- The natural number nearest to `num / den`, a half to the even neighbour. -/
def halfEven (num den : Nat) : Nat :=
  let quotient := num / den
  let rest := 2 * (num % den)
  if rest < den then quotient
  else if den < rest then quotient + 1
  else quotient + quotient % 2

/-- The magnitude nearest to `num / den`; what lies beyond the largest number rounds to infinity. -/
def round (f : Format) (num den : Nat) : Nat :=
  let scaled := num * Nat.pow 2 f.lowest
  let exponent := (scaled / den).log2 + 1 - f.precision
  let significand := halfEven scaled (den * Nat.pow 2 exponent)
  min (exponent * f.binade + significand) f.infinity

end Format
end SwarmEvolution.Number
