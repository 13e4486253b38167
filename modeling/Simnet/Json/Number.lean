import Simnet.Clock
import Simnet.Decimal.Read
import Simnet.Json.Basic

namespace Simnet.Json

/-! Numbers in structured text. A whole number that fits a word is exact. Any
other number is read as a word of leading digits that is scaled by a power of
ten, which need not give the nearest value. -/

/-- Appends digits to a significand as long as it fits a word; the digits that do
not fit are left over. -/
def appendDigits : (significand : Nat) → List Char → Nat × List Char
  | significand, [] => (significand, [])
  | significand, digit :: rest =>
      let longer := 10 * significand + Decimal.digitValue digit
      if longer ≤ maxTime then
        appendDigits longer rest
      else
        (significand, digit :: rest)

def maxPower : Nat := 308

def powerOfTen (exponent : Nat) : Float :=
  Decimal.nearest 1 exponent

/-- Multiplies or divides by a power of ten; none when the result is too large.
Three divisions at most leave nothing of any word. -/
def scaleByPower : (fuel : Nat) → Float → (exponent : Int) → Option Float
  | fuel, value, exponent =>
      if exponent.natAbs ≤ maxPower then
        let power := powerOfTen exponent.natAbs
        if exponent < 0 then
          some (value / power)
        else
          let product := value * power
          if product.isInf then none else some product
      else if value == 0 then
        some value
      else if 0 < exponent then
        none
      else
        match fuel with
        | 0 => some 0
        | fuel + 1 => scaleByPower fuel (value / powerOfTen maxPower) (exponent + maxPower)

/-- The exponent part of a number. An absent part stands for zero; digits beyond
the range of exponents are told apart. -/
inductive ExponentPart
  | of (value : Int)
  | hugePositive
  | hugeNegative
deriving DecidableEq

def maxExponent : Nat := 0x7FFFFFFF

def splitMinus : List Char → Bool × List Char
  | '-' :: rest => (true, rest)
  | rest => (false, rest)

def splitSign : List Char → Bool × List Char
  | '+' :: rest => (false, rest)
  | rest => splitMinus rest

def readExponent : List Char → Option (Option ExponentPart × List Char)
  | mark :: rest =>
      if mark = 'e' ∨ mark = 'E' then
        let (negative, rest) := splitSign rest
        let (digits, rest) := Decimal.spanDigits rest
        let value := Decimal.ofDigits digits
        if digits = [] then
          none
        else if maxExponent < value then
          some (some (if negative then .hugeNegative else .hugePositive), rest)
        else
          some (some (.of (if negative then -(value : Int) else value)), rest)
      else
        some (none, mark :: rest)
  | [] => some (none, [])

def readFraction : List Char → Option (Option (List Char) × List Char)
  | '.' :: rest =>
      let (digits, rest) := Decimal.spanDigits rest
      if digits = [] then none else some (some digits, rest)
  | rest => some (none, rest)

structure NumberParts where
  negative : Bool
  whole : List Char
  fraction : Option (List Char)
  exponent : Option ExponentPart

namespace NumberParts

def float? (parts : NumberParts) : Option Float :=
  let (significand, left) := appendDigits 0 parts.whole
  let fraction := parts.fraction.getD []
  let (significand, unused) := appendDigits significand fraction
  let shift : Int := left.length - (fraction.length - unused.length)
  let scaled (exponent : Int) :=
    scaleByPower 4 (Float.ofNat significand) exponent
  let magnitude :=
    match parts.exponent with
    | none => scaled shift
    | some (.of exponent) => scaled (shift + exponent)
    | some .hugeNegative => some 0
    | some .hugePositive => if significand = 0 then some 0 else none
  magnitude.map (Decimal.negateIf parts.negative)

/-- A number without point and exponent is exact when it fits a signed or an
unsigned word; the negative zero is not. -/
def integer? (parts : NumberParts) : Option Int :=
  let value := Decimal.ofDigits parts.whole
  if parts.fraction.isSome ∨ parts.exponent.isSome then
    none
  else if parts.negative then
    if 0 < value ∧ value ≤ 0x8000000000000000 then some (-(value : Int)) else none
  else if value ≤ maxTime then
    some value
  else
    none

def toJson (parts : NumberParts) : Json :=
  match parts.integer? with
  | some value => integer value
  | none =>
      match parts.float? with
      | some value => float value
      | none => unrepresentable

end NumberParts

/-- The whole digits of a number: a zero alone, or digits that start with another
one. -/
def readWhole (text : List Char) : Option (List Char × List Char) :=
  match Decimal.spanDigits text with
  | ([], _) => none
  | ('0' :: _ :: _, _) => none
  | (digits, rest) => some (digits, rest)

def readNumber (text : List Char) : Option (Json × List Char) := do
  let (negative, rest) := splitMinus text
  let (whole, rest) ← readWhole rest
  let (fraction, rest) ← readFraction rest
  let (exponent, rest) ← readExponent rest
  some (NumberParts.toJson ⟨negative, whole, fraction, exponent⟩, rest)

end Simnet.Json
