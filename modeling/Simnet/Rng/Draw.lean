import Simnet.Rng.Basic

namespace Simnet

/-! Draws from finite ranges. A raw number of a given width is multiplied by the
size of the range; the part above the width is the result and the part below it
decides whether the raw number is accepted, so that all results are equally
likely. -/

inductive Width
  | single
  | double
deriving DecidableEq, Repr

namespace Width

def bits : Width → Nat
  | single => 32
  | double => 64

def size : Width → Nat
  | single => 0x100000000
  | double => 0x10000000000000000

end Width

namespace Rng

def raw (rng : Rng) : Width → Nat × Rng
  | .single =>
      let (word, rng) := rng.word
      (word.toNat, rng)
  | .double =>
      let (word, rng) := rng.doubleWord
      (word.toNat, rng)

/-- How many raw numbers a draw may reject, which makes it a total function. Each is
rejected with a chance below one half, so no run comes near the bound. -/
def maxRejections : Nat := 512

/-- Scales raw numbers to the range below `size` until one has a low part within
`zone`. -/
def scale (width : Width) (size zone : Nat) : (rejections : Nat) → Rng → Nat × Rng
  | 0, rng =>
      let (value, rng) := rng.raw width
      (value * size / width.size, rng)
  | rejections + 1, rng =>
      let (value, rng) := rng.raw width
      let product := value * size
      if product % width.size ≤ zone then
        (product / width.size, rng)
      else
        scale width size zone rejections rng

/-- The largest low part that `below` accepts: `size` is shifted up until its top
bit fills the width. -/
def shiftedZone (width : Width) (size : Nat) : Nat :=
  size <<< (width.bits - (size.log2 + 1)) - 1

/-- The largest low part that leaves a whole number of raw numbers per result. -/
def exactZone (width : Width) (size : Nat) : Nat :=
  width.size - 1 - (width.size - size) % size

/-- A number below `size`, which is at least one and at most `width.size`. -/
def below (width : Width) (size : Nat) (rng : Rng) : Nat × Rng :=
  scale width size (shiftedZone width size) maxRejections rng

def between (width : Width) (low high : Nat) (rng : Rng) : Nat × Rng :=
  let (offset, rng) := rng.below width (high - low + 1)
  (low + offset, rng)

def choose {α : Type} (items : List α) (rng : Rng) : Option α × Rng :=
  match items with
  | [] => (none, rng)
  | first :: rest =>
      let (index, rng) := rng.below .single (rest.length + 1)
      (some (((first :: rest)[index]?).getD first), rng)

/-- Swaps the element at each place, from the last one down, with the one at a
drawn place no later. -/
def shuffleFrom {α : Type} : (place : Nat) → Array α → Rng → Array α × Rng
  | 0, items, rng => (items, rng)
  | place + 1, items, rng =>
      let (other, rng) := rng.below .single (place + 2)
      shuffleFrom place (items.swapIfInBounds (place + 1) other) rng

def shuffle {α : Type} (items : List α) (rng : Rng) : List α × Rng :=
  let (shuffled, rng) := shuffleFrom (items.length - 1) items.toArray rng
  (shuffled.toList, rng)

/-- The first item whose weight, added to those before it, exceeds `point`. -/
def pickWeighted {α : Type} (weight : α → Nat) : (point : Nat) → List α → Option α
  | _, [] => none
  | point, item :: rest =>
      if point < weight item then
        some item
      else
        pickWeighted weight (point - weight item) rest

/-- An element drawn with a chance proportional to its weight; nothing is drawn
when all weights together are zero. -/
def chooseWeighted {α : Type} (weight : α → Nat) (items : List α) (rng : Rng) :
    Option α × Rng :=
  let total := (items.map weight).foldr (· + ·) 0
  if total = 0 then
    (none, rng)
  else
    let (point, rng) := scale .single total (exactZone .single total) maxRejections rng
    (pickWeighted weight point items, rng)

end Rng

end Simnet
