import Simnet.Decimal.Binary

namespace Simnet.Decimal

/-! The shortest decimal that reads back. For one, two, … digits the two
neighbours of the value on that decimal grid are tested against the interval of
reals that round to the value; the first grid with a hit wins, and of two hits
the nearer. -/

/-- The decimal `digits * 10 ^ exponent`. -/
structure Scaled where
  digits : Nat
  exponent : Int
deriving DecidableEq, Repr

inductive Tie
  | toEven
  | up
deriving DecidableEq, Repr

def digitCount (number : Nat) : Nat :=
  (Nat.toDigits 10 number).length

def Scaled.trim : Nat → Scaled → Scaled
  | 0, decimal => decimal
  | fuel + 1, decimal =>
      if decimal.digits ≠ 0 ∧ decimal.digits % 10 = 0 then
        Scaled.trim fuel ⟨decimal.digits / 10, decimal.exponent + 1⟩
      else
        decimal

/-- The least `k` for which the positive fraction lies below `10 ^ k`. -/
def decimalPlace (numerator denominator : Nat) : Int :=
  if denominator ≤ numerator then
    digitCount (numerator / denominator)
  else
    1 - digitCount ((denominator - 1) / numerator)

/-- The neighbours on one decimal grid, tested against the rounding interval of
`value`. -/
def onGrid? (tie : Tie) (value : Binary) (exponent : Int) : Option Scaled :=
  let fine := value.quarter
  let scale := Nat.pow 10 exponent.toNat * fine.denominator
  let unit := Nat.pow 10 (-exponent).toNat * Nat.pow 2 fine.exponent.toNat
  let exact := fine.mantissa * unit
  let low := (fine.mantissa - value.stepDown) * unit
  let high := (fine.mantissa + 2) * unit
  let below := exact / scale
  let inside (candidate : Nat) : Bool :=
    let point := candidate * scale
    if value.mantissa % 2 = 0 then
      low ≤ point && point ≤ high
    else
      low < point && point < high
  let twice := 2 * (exact % scale)
  let upper :=
    scale < twice || twice = scale && (tie = .up || below % 2 = 1)
  match inside below, inside (below + 1) with
  | false, false => none
  | true, false => some ⟨below, exponent⟩
  | false, true => some ⟨below + 1, exponent⟩
  | true, true => some ⟨if upper then below + 1 else below, exponent⟩

def searchGrid (tie : Tie) (value : Binary) (place : Int) :
    (remaining digits : Nat) → Scaled
  | 0, digits =>
      (onGrid? tie value (place - digits)).getD ⟨0, 0⟩
  | remaining + 1, digits =>
      match onGrid? tie value (place - digits) with
      | some decimal => decimal
      | none => searchGrid tie value place remaining (digits + 1)

/-- The fewest digits that read back as `value`; seventeen always do. -/
def shortest (tie : Tie) (value : Binary) : Scaled :=
  if value.mantissa = 0 then
    ⟨0, 0⟩
  else
    let place := decimalPlace value.numerator value.denominator
    (searchGrid tie value place 17 1).trim 17

end Simnet.Decimal
