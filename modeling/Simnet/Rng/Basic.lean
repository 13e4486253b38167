import Simnet.Rng.Block

namespace Simnet

/-! The seeded generator. Its output is the sequence of the words of block zero,
block one and so on; the state holds the words of the current block that are not
drawn yet. Two states with the same future are equal, because a block is opened
only when a word of it is drawn. -/

structure Rng where
  key : Key
  counter : UInt64 := 0
  buffer : List UInt32 := []
deriving DecidableEq

namespace Rng

def ofSeed (seed : UInt64) : Rng where
  key := .ofSeed seed

def word (rng : Rng) : UInt32 × Rng :=
  match rng.buffer with
  | first :: rest => (first, { rng with buffer := rest })
  | [] =>
      let block := (rng.key.input rng.counter).block
      (block[0],
        { rng with counter := rng.counter + 1, buffer := block.toList.tail })

/-- The next two words as one number, the first word being the low half. -/
def doubleWord (rng : Rng) : UInt64 × Rng :=
  let (low, rng) := rng.word
  let (high, rng) := rng.word
  (low.toUInt64 ||| (high.toUInt64 <<< 32), rng)

end Rng

end Simnet
