import Simnet.Json.Number

namespace Simnet.Json

/-! Reading structured text. Blanks may stand between any two tokens, and nothing
but blanks may follow the value. -/

def isBlank (char : Char) : Bool :=
  char = ' ' || char = '\n' || char = '\t' || char = '\r'

def skipBlanks (text : List Char) : List Char :=
  text.dropWhile isBlank

def hexValue? (char : Char) : Option Nat :=
  if char.isDigit then
    some (Decimal.digitValue char)
  else if 'a' ≤ char ∧ char ≤ 'f' then
    some (char.toNat - 'a'.toNat + 10)
  else if 'A' ≤ char ∧ char ≤ 'F' then
    some (char.toNat - 'A'.toNat + 10)
  else
    none

def hexUnit? (a b c d : Char) : Option Nat := do
  let first ← hexValue? a
  let second ← hexValue? b
  let third ← hexValue? c
  let fourth ← hexValue? d
  some (((first * 16 + second) * 16 + third) * 16 + fourth)

def simpleEscape? (letter : Char) : Option Char :=
  match letter with
  | '"' => some '"'
  | '\\' => some '\\'
  | '/' => some '/'
  | 'n' => some '\n'
  | 't' => some '\t'
  | 'r' => some '\r'
  | 'b' => some (Char.ofNat 8)
  | 'f' => some (Char.ofNat 12)
  | _ => none

/-- The contents of a quoted text as code units, up to the closing quote, and what
follows it. Control characters must be escaped. -/
def readUnits : List Char → Option (List Nat × List Char)
  | [] => none
  | '"' :: rest => some ([], rest)
  | '\\' :: 'u' :: a :: b :: c :: d :: rest => do
      let unit ← hexUnit? a b c d
      let (units, rest) ← readUnits rest
      some (unit :: units, rest)
  | '\\' :: letter :: rest => do
      let char ← simpleEscape? letter
      let (units, rest) ← readUnits rest
      some (char.toNat :: units, rest)
  | char :: rest => do
      if char.toNat < 32 ∨ char = '\\' then
        none
      else
        let (units, rest) ← readUnits rest
        some (char.toNat :: units, rest)

/-- Joins surrogate pairs; none when one half stands alone. -/
def joinUnits : List Nat → Option (List Char)
  | [] => some []
  | unit :: rest =>
      if 0xD800 ≤ unit ∧ unit < 0xDC00 then
        match rest with
        | low :: rest =>
            if 0xDC00 ≤ low ∧ low < 0xE000 then
              (joinUnits rest).map
                (Char.ofNat (0x10000 + (unit - 0xD800) * 0x400 + (low - 0xDC00)) :: ·)
            else
              none
        | [] => none
      else if 0xDC00 ≤ unit ∧ unit < 0xE000 then
        none
      else
        (joinUnits rest).map (Char.ofNat unit :: ·)

/-- A quoted text after its opening quote; it may stand for no text. -/
def readText (text : List Char) : Option (Option String × List Char) := do
  let (units, rest) ← readUnits text
  some ((joinUnits units).map String.ofList, rest)

def ofNamed (fields : List (Option String × Json)) : Json :=
  match fields.mapM fun field => field.1.map fun name => (name, field.2) with
  | some fields => object fields
  | none => unrepresentable

mutual

/-- Reads one value; the fuel bounds the depth and the number of items. -/
def readValue : (fuel : Nat) → List Char → Option (Json × List Char)
  | 0, _ => none
  | fuel + 1, text =>
      match skipBlanks text with
      | 'n' :: 'u' :: 'l' :: 'l' :: rest => some (null, rest)
      | 't' :: 'r' :: 'u' :: 'e' :: rest => some (bool true, rest)
      | 'f' :: 'a' :: 'l' :: 's' :: 'e' :: rest => some (bool false, rest)
      | '"' :: rest =>
          match readText rest with
          | none => none
          | some (some text, rest) => some (string text, rest)
          | some (none, rest) => some (unrepresentable, rest)
      | '[' :: rest =>
          match skipBlanks rest with
          | ']' :: rest => some (array [], rest)
          | rest =>
              match readItems fuel rest with
              | none => none
              | some (items, rest) => some (array items, rest)
      | '\x7b' :: rest =>
          match skipBlanks rest with
          | '\x7d' :: rest => some (object [], rest)
          | rest =>
              match readFields fuel rest with
              | none => none
              | some (fields, rest) => some (ofNamed fields, rest)
      | rest => readNumber rest

def readItems : (fuel : Nat) → List Char → Option (List Json × List Char)
  | 0, _ => none
  | fuel + 1, text =>
      match readValue fuel text with
      | none => none
      | some (item, rest) =>
          match skipBlanks rest with
          | ']' :: rest => some ([item], rest)
          | ',' :: rest =>
              match readItems fuel rest with
              | none => none
              | some (items, rest) => some (item :: items, rest)
          | _ => none

def readFields : (fuel : Nat) → List Char →
    Option (List (Option String × Json) × List Char)
  | 0, _ => none
  | fuel + 1, text =>
      match skipBlanks text with
      | '"' :: rest =>
          match readText rest with
          | none => none
          | some (name, rest) =>
              match skipBlanks rest with
              | ':' :: rest =>
                  match readValue fuel rest with
                  | none => none
                  | some (value, rest) =>
                      match skipBlanks rest with
                      | '\x7d' :: rest => some ([(name, value)], rest)
                      | ',' :: rest =>
                          match readFields fuel rest with
                          | none => none
                          | some (fields, rest) => some ((name, value) :: fields, rest)
                      | _ => none
              | _ => none
      | _ => none

end

/-- Every level of a text takes a character, and a level takes two steps. -/
def parseChars (text : List Char) : Option Json :=
  match readValue (2 * text.length + 2) text with
  | none => none
  | some (value, rest) => if skipBlanks rest = [] then some value else none

def parse (text : String) : Option Json :=
  parseChars text.toList

end Simnet.Json
