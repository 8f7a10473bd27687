import SwarmEvolution.Sampling.Stream

/-!
Draws from a stream of random words: numbers, coins, and indices without bias. A draw is a state
transformer, so the order of draws is the order in which a computation is written.
-/
namespace SwarmEvolution.Sampling

/-- A computation that reads from a stream. -/
abbrev Draw := StateM Stream

namespace Draw

def word : Draw UInt32 := fun s => s.next

/-- Two words, the first the low half. -/
def wide : Draw UInt64 := do
  let low ← word
  let high ← word
  return high.toUInt64 <<< 32 ||| low.toUInt64

/-- A number from zero up to, not including, one, on a grid of `2 ^ -24`. -/
def unit : Draw Float32 := do
  let w ← word
  return (w >>> 8).toFloat32 * Float32.ofBits 0x33800000

/-- True with probability `p`; certainty draws nothing. -/
def chance (p : Float) : Draw Bool := do
  if p == 1 then return true
  let v ← wide
  return v < (p * 18446744073709551616).toUInt64

/-- A fair coin. -/
def coin : Draw Bool := do
  let v ← wide
  return v < 0x8000000000000000

/-- How often a word may be refused before `pick` gives up. Fewer than half of the words are
refused, so no stream is known to come near it. -/
def patience : Nat := 512

/-- A number below `range` from words of `width` bits: the high half of the product of word and
range, where words whose low half lies in the last, incomplete stretch are refused. -/
def pick (width : Nat) (draw : Draw Nat) (range : Nat) : Nat → Draw Nat
  | 0 => return 0
  | attempts + 1 => do
    let product := (← draw) * range
    let words := Nat.pow 2 width
    let zone := range * Nat.pow 2 (width - 1 - range.log2) - 1
    if product % words ≤ zone then return product / words
    else pick width draw range attempts

/-- A number below `range`, which is positive, from words of 32 bits. -/
def small (range : Nat) : Draw Nat := pick 32 (return (← word).toNat) range patience

/-- A number below `range`, which is positive, from words of 64 bits. -/
def below (range : Nat) : Draw Nat := pick 64 (return (← wide).toNat) range patience

/-- A number from `low` up to, not including, `high`. -/
def between (low high : Int) : Draw Int := return low + (← below (high - low).toNat)

/-- The outcome of a draw made with a stream of its own. -/
def withSeed (seed : UInt64) (draw : Draw α) : α := (draw (Stream.ofSeed seed)).1

/-- As many draws as the list has members, in order. -/
def each (draw : α → Draw β) : List α → Draw (List β)
  | [] => return []
  | a :: rest => do
    let b ← draw a
    let bs ← each draw rest
    return b :: bs

/-- The outcomes of `n` draws, in order. -/
def times (n : Nat) (draw : Draw α) : Draw (List α) := each (fun _ => draw) (List.range n)

end Draw
end SwarmEvolution.Sampling
