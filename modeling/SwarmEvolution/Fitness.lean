import SwarmEvolution.Number.Single

/-!
Fitness, the mean error that evolution keeps low. It is compared as the number it stands for, but
ranked by its bit pattern, in which even what is no number has a sign and a place.
-/
namespace SwarmEvolution

structure Fitness where
  bits : UInt32
  deriving BEq, DecidableEq, Repr

namespace Fitness

def ofFloat (x : Float32) : Fitness := ⟨x.toBits⟩

def value (f : Fitness) : Float32 := Float32.ofBits f.bits

/-- What stands in for a fitness that is not known. -/
def worst : Fitness := ofFloat Number.largest

/-- The place among all fitness values; the fittest comes first. -/
def rank (f : Fitness) : Int := Number.rank f.bits

/-- Reads a numeral and keeps the sign of what is no number. -/
def read? (text : String) : Option Fitness :=
  (Number.Numeral.read? text.toList).map fun n =>
    ⟨UInt32.ofNat (Number.Format.single.ofNumeral n)⟩

end Fitness
end SwarmEvolution
