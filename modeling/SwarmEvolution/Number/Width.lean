/-! The integers that fit a number of bits. -/
namespace SwarmEvolution.Number

/-- Integers from zero up that fit 64 bits. -/
def fitsUInt64 (n : Int) : Bool := 0 ≤ n && n < UInt64.size

/-- Integers that fit 64 bits with sign. -/
def fitsInt64 (n : Int) : Bool := Int64.minValue.toInt ≤ n && n ≤ Int64.maxValue.toInt

/-- Integers that fit 32 bits with sign. -/
def fitsInt32 (n : Int) : Bool := Int32.minValue.toInt ≤ n && n ≤ Int32.maxValue.toInt

end SwarmEvolution.Number
