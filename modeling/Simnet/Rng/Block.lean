namespace Simnet

/-! The ChaCha block function with eight rounds: sixteen words go through four
double rounds and are added to themselves. -/

abbrev Words := Vector UInt32 16

namespace Words

def rotateLeft (word : UInt32) (amount : UInt32) : UInt32 :=
  (word <<< amount) ||| (word >>> (32 - amount))

def quarterRound (words : Words) (a b c d : Fin 16) : Words :=
  let words := words.set a (words.get a + words.get b)
  let words := words.set d (rotateLeft (words.get d ^^^ words.get a) 16)
  let words := words.set c (words.get c + words.get d)
  let words := words.set b (rotateLeft (words.get b ^^^ words.get c) 12)
  let words := words.set a (words.get a + words.get b)
  let words := words.set d (rotateLeft (words.get d ^^^ words.get a) 8)
  let words := words.set c (words.get c + words.get d)
  words.set b (rotateLeft (words.get b ^^^ words.get c) 7)

def doubleRound (words : Words) : Words :=
  let words := words.quarterRound 0 4 8 12
  let words := words.quarterRound 1 5 9 13
  let words := words.quarterRound 2 6 10 14
  let words := words.quarterRound 3 7 11 15
  let words := words.quarterRound 0 5 10 15
  let words := words.quarterRound 1 6 11 12
  let words := words.quarterRound 2 7 8 13
  words.quarterRound 3 4 9 14

/-- Four double rounds and the final addition of the input. -/
def block (words : Words) : Words :=
  let mixed := words.doubleRound.doubleRound.doubleRound.doubleRound
  Vector.zipWith (· + ·) mixed words

end Words

abbrev Key := Vector UInt32 8

namespace Key

/-- The text "expand 32-byte k" as four little-endian words. -/
def constants : Vector UInt32 4 :=
  #v[0x61707865, 0x3320646e, 0x79622d32, 0x6b206574]

/-- The input of one block: four constant words, the key, the block's number in
two words, and two zero words. -/
def input (key : Key) (counter : UInt64) : Words :=
  constants ++ key ++
    #v[counter.toUInt32, (counter >>> 32).toUInt32, 0, 0]

/-- One step of the linear congruential sequence that spreads a seed. -/
def advance (state : UInt64) : UInt64 :=
  state * 6364136223846793005 + 11634580027462260723

/-- The output word of a state: its high half folded, then rotated by its top
bits. -/
def scramble (state : UInt64) : UInt32 :=
  let folded := (((state >>> 18) ^^^ state) >>> 27).toUInt32
  let amount := (state >>> 59).toUInt32
  if amount = 0 then
    folded
  else
    (folded >>> amount) ||| (folded <<< (32 - amount))

def spread : (count : Nat) → UInt64 → Vector UInt32 count
  | 0, _ => #v[]
  | count + 1, state =>
      let next := advance state
      ((#v[scramble next] ++ spread count next).cast (Nat.add_comm 1 count))

def ofSeed (seed : UInt64) : Key :=
  spread 8 seed

end Key

end Simnet
