import Simnet.Decimal.Layout
import Simnet.Json.Basic

namespace Simnet.Json

/-! The indented form of a value: two blanks per level, one item or field per
line, and nothing between the brackets of an empty container. -/

def hexDigit (value : Nat) : Char :=
  if value < 10 then Char.ofNat ('0'.toNat + value) else Char.ofNat ('a'.toNat + value - 10)

def escapeChar (char : Char) : List Char :=
  if char = '"' then ['\\', '"']
  else if char = '\\' then ['\\', '\\']
  else if char = '\n' then ['\\', 'n']
  else if char = '\t' then ['\\', 't']
  else if char = '\r' then ['\\', 'r']
  else if char.toNat = 8 then ['\\', 'b']
  else if char.toNat = 12 then ['\\', 'f']
  else if char.toNat < 32 then
    ['\\', 'u', '0', '0', hexDigit (char.toNat / 16), hexDigit (char.toNat % 16)]
  else [char]

def quote (text : String) : List Char :=
  '"' :: text.toList.flatMap escapeChar ++ ['"']

/-- A number with no finite value is written as null. -/
def floatChars (value : Float) : List Char :=
  if value.isFinite then (Decimal.reportText value).toList else ['n', 'u', 'l', 'l']

def integerChars (value : Int) : List Char :=
  if value < 0 then '-' :: (Nat.repr value.natAbs).toList else (Nat.repr value.natAbs).toList

def newLine (depth : Nat) : List Char :=
  '\n' :: List.replicate (2 * depth) ' '

mutual

def prettyChars (depth : Nat) : Json → List Char
  | null | unrepresentable => ['n', 'u', 'l', 'l']
  | bool true => ['t', 'r', 'u', 'e']
  | bool false => ['f', 'a', 'l', 's', 'e']
  | integer value => integerChars value
  | float value => floatChars value
  | string text => quote text
  | array [] => ['[', ']']
  | array (first :: rest) =>
      '[' :: newLine (depth + 1) ++ prettyChars (depth + 1) first ++
        prettyItems (depth + 1) rest ++ newLine depth ++ [']']
  | object [] => ['\x7b', '\x7d']
  | object (first :: rest) =>
      '\x7b' :: newLine (depth + 1) ++ prettyField (depth + 1) first ++
        prettyFields (depth + 1) rest ++ newLine depth ++ ['\x7d']

def prettyItems (depth : Nat) : List Json → List Char
  | [] => []
  | item :: rest =>
      ',' :: newLine depth ++ prettyChars depth item ++ prettyItems depth rest

def prettyField (depth : Nat) : String × Json → List Char
  | (name, value) => quote name ++ [':', ' '] ++ prettyChars depth value

def prettyFields (depth : Nat) : List (String × Json) → List Char
  | [] => []
  | field :: rest =>
      ',' :: newLine depth ++ prettyField depth field ++ prettyFields depth rest

end

def pretty (value : Json) : String :=
  String.ofList (prettyChars 0 value)

end Simnet.Json
