import Simnet.Decimal.Shortest

namespace Simnet.Decimal

/-! The written forms of a number. Reports use `reportText`, which always shows
a fraction or an exponent; messages use `plainText`, which never shows an
exponent, and `wholeText`, which rounds to a whole number. -/

def digitsText (number : Nat) : String :=
  Nat.repr number

def zeros (count : Nat) : String :=
  String.ofList (List.replicate count '0')

/-- Writes digits with the point after the first `place` of them, padded with
zeros on the side that lacks digits; no point is written after the last digit. -/
def positional (digits : String) (place : Int) : String :=
  if place ≤ 0 then
    "0." ++ zeros (-place).toNat ++ digits
  else if digits.length ≤ place.toNat then
    digits ++ zeros (place.toNat - digits.length)
  else
    String.ofList (digits.toList.take place.toNat) ++ "." ++
      String.ofList (digits.toList.drop place.toNat)

def scientific (digits : String) (place : Int) : String :=
  let power := place - 1
  let sign := if power < 0 then "e-" else "e+"
  let lead := digits.toList.take 1
  let rest := digits.toList.drop 1
  let mantissa :=
    if rest.isEmpty then lead else lead ++ '.' :: rest
  String.ofList mantissa ++ sign ++ digitsText power.natAbs

def signText (number : Float) : String :=
  if isNegative number then "-" else ""

/-- A finite number in a report: positional from `1e-5` up to below `1e16`, with
at least one digit after the point, scientific elsewhere. -/
def reportText (number : Float) : String :=
  let decimal := shortest .toEven (Binary.ofFloat number)
  let digits := digitsText decimal.digits
  let place := digits.length + decimal.exponent
  if decimal.digits = 0 then
    signText number ++ "0.0"
  else if -5 < place ∧ place ≤ 16 then
    signText number ++ positional digits place ++
      (if 0 ≤ decimal.exponent then ".0" else "")
  else
    signText number ++ scientific digits place

/-- A number in a message: the shortest digits, written out in full. -/
def plainText (number : Float) : String :=
  if number.isNaN then
    "NaN"
  else if number.isInf then
    signText number ++ "inf"
  else
    let decimal := shortest .up (Binary.ofFloat number)
    let digits := digitsText decimal.digits
    if decimal.digits = 0 then
      signText number ++ "0"
    else
      signText number ++ positional digits (digits.length + decimal.exponent)

/-- The nearest whole number, a half going to the even neighbour. -/
def nearestWhole (value : Binary) : Nat :=
  let quotient := value.numerator / value.denominator
  let twice := 2 * (value.numerator % value.denominator)
  if value.denominator < twice ∨ twice = value.denominator ∧ quotient % 2 = 1 then
    quotient + 1
  else
    quotient

def wholeText (number : Float) : String :=
  if number.isNaN then
    "NaN"
  else if number.isInf then
    signText number ++ "inf"
  else
    signText number ++ digitsText (nearestWhole (Binary.ofFloat number))

end Simnet.Decimal
