import Simnet.Decimal.Read
import Simnet.Toml.Basic

namespace Simnet.Toml

/-! Numbers, dates and times. -/

/-- Digits of a base with single underscores between them; the first character
must be a digit. -/
def readDigits (isDigit : Char → Bool) : List Char → Option (List Char × List Char)
  | '_' :: _ => none
  | [] => none
  | digit :: rest =>
      if isDigit digit then
        match rest with
        | '_' :: next =>
            match readDigits isDigit next with
            | none => none
            | some (digits, rest) => some (digit :: digits, rest)
        | next :: after =>
            if isDigit next then
              match readDigits isDigit (next :: after) with
              | none => none
              | some (digits, rest) => some (digit :: digits, rest)
            else
              some ([digit], next :: after)
        | [] => some ([digit], [])
      else
        none

def hexDigitValue (digit : Char) : Nat :=
  if digit.isDigit then Decimal.digitValue digit
  else if 'a' ≤ digit then digit.toNat - 'a'.toNat + 10
  else digit.toNat - 'A'.toNat + 10

def isHexDigit (char : Char) : Bool :=
  char.isDigit || ('a' ≤ char && char ≤ 'f') || ('A' ≤ char && char ≤ 'F')

def isOctalDigit (char : Char) : Bool :=
  '0' ≤ char && char ≤ '7'

def isBinaryDigit (char : Char) : Bool :=
  char = '0' || char = '1'

def ofDigits (base : Nat) (digits : List Char) : Nat :=
  digits.foldl (fun value digit => base * value + hexDigitValue digit) 0

def signedLimit : Int := 0x8000000000000000

def ofInteger? (value : Int) : Option Toml :=
  if -signedLimit ≤ value ∧ value < signedLimit then some (integer value) else none

def readBased (base : Nat) (isDigit : Char → Bool) (text : List Char) : Option (Toml × List Char) :=
  match readDigits isDigit text with
  | none => none
  | some (digits, rest) => (ofInteger? (ofDigits base digits)).map (·, rest)

def readSign : List Char → Bool × List Char
  | '-' :: rest => (true, rest)
  | '+' :: rest => (false, rest)
  | text => (false, text)

def readExponent (text : List Char) : Option (Int × List Char) :=
  let (negative, rest) := readSign text
  match readDigits Char.isDigit rest with
  | none => none
  | some (digits, rest) =>
      let value : Int := Decimal.ofDigits digits
      some (if negative then -value else value, rest)

/-- A number with a point or an exponent, to the nearest value; a number above all
others is refused. -/
def ofDecimal? (negative : Bool) (digits : List Char) (exponent : Int) : Option Toml :=
  let value := Decimal.negateIf negative (Decimal.nearest (Decimal.ofDigits digits) exponent)
  if value == Decimal.infinity then none else some (float value)

def readAfterWhole (negative : Bool) (whole : List Char) : List Char → Option (Toml × List Char)
  | '.' :: rest =>
      match readDigits Char.isDigit rest with
      | none => none
      | some (fraction, rest) =>
          let exponent :=
            match rest with
            | mark :: after =>
                if mark = 'e' ∨ mark = 'E' then readExponent after else some (0, rest)
            | [] => some (0, [])
          match exponent with
          | none => none
          | some (exponent, rest) =>
              (ofDecimal? negative (whole ++ fraction) (exponent - fraction.length)).map (·, rest)
  | mark :: rest =>
      if mark = 'e' ∨ mark = 'E' then
        match readExponent rest with
        | none => none
        | some (exponent, rest) => (ofDecimal? negative whole exponent).map (·, rest)
      else
        let value : Int := Decimal.ofDigits whole
        (ofInteger? (if negative then -value else value)).map (·, mark :: rest)
  | [] =>
      let value : Int := Decimal.ofDigits whole
      (ofInteger? (if negative then -value else value)).map (·, [])

/-- A decimal number after its sign; a leading zero stands alone. -/
def readDecimal (negative : Bool) : List Char → Option (Toml × List Char)
  | '0' :: rest => readAfterWhole negative ['0'] rest
  | text =>
      match readDigits Char.isDigit text with
      | none => none
      | some (digits, rest) => readAfterWhole negative digits rest

def readFixed : (count : Nat) → (value : Nat) → List Char → Option (Nat × List Char)
  | 0, value, text => some (value, text)
  | count + 1, value, digit :: rest =>
      if digit.isDigit then
        readFixed count (10 * value + Decimal.digitValue digit) rest
      else
        none
  | _ + 1, _, [] => none

def readPart (count low high : Nat) (text : List Char) : Option (Nat × List Char) :=
  match readFixed count 0 text with
  | some (value, rest) => if low ≤ value ∧ value ≤ high then some (value, rest) else none
  | none => none

def expect (char : Char) : List Char → Option (List Char)
  | found :: rest => if found = char then some rest else none
  | [] => none

def daysOfMonth (year month : Nat) : Nat :=
  if month = 2 then
    if year % 4 = 0 ∧ (year % 100 ≠ 0 ∨ year % 400 = 0) then 29 else 28
  else if month = 4 ∨ month = 6 ∨ month = 9 ∨ month = 11 then
    30
  else
    31

def readDate (text : List Char) : Option (List Char) := do
  let (year, rest) ← readFixed 4 0 text
  let rest ← expect '-' rest
  let (month, rest) ← readPart 2 1 12 rest
  let rest ← expect '-' rest
  let (_, rest) ← readPart 2 1 (daysOfMonth year month) rest
  return rest

def readSecondFraction : List Char → Option (List Char)
  | '.' :: rest =>
      match Decimal.spanDigits rest with
      | ([], _) => none
      | (_, rest) => some rest
  | text => some text

/-- Minutes and seconds after the hour; a minute may have a leap second. -/
def readAfterHour (text : List Char) : Option (List Char) := do
  let (_, rest) ← readPart 2 0 59 text
  let rest ← expect ':' rest
  let (_, rest) ← readPart 2 0 60 rest
  readSecondFraction rest

def readOffset : List Char → Option (List Char)
  | [] => some []
  | mark :: rest =>
      if mark = 'Z' ∨ mark = 'z' then
        some rest
      else if mark = '+' ∨ mark = '-' then do
        let (_, rest) ← readPart 2 0 23 rest
        let rest ← expect ':' rest
        let (_, rest) ← readPart 2 0 59 rest
        return rest
      else
        some (mark :: rest)

def startsTime (text : List Char) : Bool :=
  ((readPart 2 0 23 text).bind fun hour => expect ':' hour.2).isSome

def startsDate (text : List Char) : Bool :=
  ((readFixed 4 0 text).bind fun year => expect '-' year.2).isSome

/-- What follows a date: a time of that day with an optional offset, or nothing. -/
def readAfterDate : List Char → Option (List Char)
  | [] => some []
  | mark :: rest =>
      if (mark = 'T' ∨ mark = 't' ∨ mark = ' ') ∧ startsTime rest then do
        let rest ← readAfterHour (rest.drop 3)
        readOffset rest
      else
        some (mark :: rest)

/-- A number, a date or a time at the head of a text that starts with a digit or a
sign. -/
def readNumber (text : List Char) : Option (Toml × List Char) :=
  if startsDate text then
    ((readDate text).bind readAfterDate).map (dateTime, ·)
  else if startsTime text then
    (readAfterHour (text.drop 3)).map (dateTime, ·)
  else
    match text with
    | '0' :: 'x' :: rest => readBased 16 isHexDigit rest
    | '0' :: 'o' :: rest => readBased 8 isOctalDigit rest
    | '0' :: 'b' :: rest => readBased 2 isBinaryDigit rest
    | _ =>
        let (negative, rest) := readSign text
        match rest with
        | 'i' :: 'n' :: 'f' :: rest =>
            some (float (Decimal.negateIf negative Decimal.infinity), rest)
        | 'n' :: 'a' :: 'n' :: rest => some (float Decimal.notANumber, rest)
        | rest => readDecimal negative rest

end Simnet.Toml
