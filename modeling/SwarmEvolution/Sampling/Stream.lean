/-!
The stream of random words: the ChaCha block function with twelve rounds, in counter mode, under a
key expanded from a 64-bit seed. Equal seeds give equal streams, and all chance in this library
comes from such a stream.
-/
namespace SwarmEvolution.Sampling

abbrev Block := Vector UInt32 16

namespace Block

def rotate (x : UInt32) (n : UInt32) : UInt32 := x <<< n ||| x >>> (32 - n)

/-- Adds word `b` to word `a`, mixes the sum into word `d` and turns that by `n` bits. -/
def mix (s : Block) (a b d : Fin 16) (n : UInt32) : Block :=
  let sum := s[a] + s[b]
  let s := s.set a sum
  s.set d (rotate (s[d] ^^^ sum) n)

def quarterRound (s : Block) (a b c d : Fin 16) : Block :=
  mix (mix (mix (mix s a b d 16) c d b 12) a b d 8) c d b 7

/-- A round over the columns and one over the diagonals. -/
def doubleRound (s : Block) : Block :=
  let s := quarterRound s 0 4 8 12
  let s := quarterRound s 1 5 9 13
  let s := quarterRound s 2 6 10 14
  let s := quarterRound s 3 7 11 15
  let s := quarterRound s 0 5 10 15
  let s := quarterRound s 1 6 11 12
  let s := quarterRound s 2 7 8 13
  quarterRound s 3 4 9 14

def rounds : Nat → Block → Block
  | 0, s => s
  | n + 1, s => rounds n (doubleRound s)

/-- The block with a given number: constants, key, counter and two zero words, after twelve rounds,
added to themselves before. -/
def ofCounter (key : Vector UInt32 8) (counter : UInt64) : Block :=
  let start : Block := #v[0x61707865, 0x3320646e, 0x79622d32, 0x6b206574,
    key[0], key[1], key[2], key[3], key[4], key[5], key[6], key[7],
    counter.toUInt32, (counter >>> 32).toUInt32, 0, 0]
  start.zipWith (· + ·) (rounds 6 start)

end Block

/-- A position in a stream: the block being handed out and how many of its words are used up. -/
structure Stream where
  key : Vector UInt32 8
  /-- The number of the block after the current one. -/
  counter : UInt64
  block : Block
  used : Nat

namespace Stream

/-- One step of the generator that expands a seed, and the word read off its new state. -/
def expandStep (state : UInt64) : UInt64 × UInt32 :=
  let state := state * 6364136223846793005 + 11634580027462260723
  let x := (((state >>> 18) ^^^ state) >>> 27).toUInt32
  let turn := (state >>> 59).toUInt32
  (state, x >>> turn ||| x <<< ((32 - turn) % 32))

/-- The first `n` words of the expansion of a seed. -/
def expand : Nat → UInt64 → List UInt32
  | 0, _ => []
  | n + 1, state => let (state, word) := expandStep state; word :: expand n state

def keyOfSeed (seed : UInt64) : Vector UInt32 8 :=
  Vector.ofFn fun i => (expand 8 seed)[i.val]?.getD 0

/-- The stream of a seed. -/
def ofSeed (seed : UInt64) : Stream :=
  let key := keyOfSeed seed
  ⟨key, 1, Block.ofCounter key 0, 0⟩

/-- The next word of the stream. -/
def next (s : Stream) : UInt32 × Stream :=
  if h : s.used < 16 then (s.block[s.used], { s with used := s.used + 1 })
  else
    let block := Block.ofCounter s.key s.counter
    (block[0], { s with counter := s.counter + 1, block, used := 1 })

end Stream
end SwarmEvolution.Sampling
