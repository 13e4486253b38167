namespace Simnet.Decimal

/-! The exact value of a binary64 number. A finite number is a natural mantissa
times a power of two, read off its bits; everything that prints a number works
on that pair in exact arithmetic. -/

structure Binary where
  mantissa : Nat
  exponent : Int
deriving DecidableEq, Repr

namespace Binary

def leastExponent : Int := -1074

/-- The place value of the leading bit in the mantissa of a normal number. -/
def leadingBit : Nat := 0x10000000000000

/-- The magnitude of a finite number; the sign is dropped. -/
def ofFloat (number : Float) : Binary :=
  let bits := number.toBits.toNat
  let fraction := bits % leadingBit
  let biased : Nat := bits / leadingBit % 0x800
  if biased = 0 then
    ⟨fraction, leastExponent⟩
  else
    ⟨leadingBit + fraction, leastExponent + biased - 1⟩

def numerator (value : Binary) : Nat :=
  value.mantissa * Nat.pow 2 value.exponent.toNat

def denominator (value : Binary) : Nat :=
  Nat.pow 2 (-value.exponent).toNat

/-- The same value over a denominator four times as fine, so that the points
half way to both neighbours are whole. -/
def quarter (value : Binary) : Binary :=
  ⟨4 * value.mantissa, value.exponent - 2⟩

/-- The distance, in quarters of the last place, down to the point half way to
the next smaller number. That number is closer when the mantissa is the least
one of its power of two. -/
def stepDown (value : Binary) : Nat :=
  if value.mantissa = leadingBit ∧ leastExponent < value.exponent then 1 else 2

end Binary

/-- True for `-0.0`, `-inf` and every number below zero. -/
def isNegative (number : Float) : Bool :=
  0x8000000000000000 ≤ number.toBits.toNat

end Simnet.Decimal
