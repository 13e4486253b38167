namespace Simnet

/-! Values of a configuration document. Dates and times are recognised, but what
they say is not kept.

A reader takes a text as its characters and answers what it made of the head and
what is left; a text that it refuses has no answer. -/

inductive Toml
  | quoted (value : String)
  | integer (value : Int)
  | float (value : Float)
  | boolean (value : Bool)
  | dateTime
  | array (items : List Toml)
  | table (fields : List (String × Toml))

namespace Toml

def isBlank (char : Char) : Bool :=
  char = ' ' || char = '\t'

def skipBlanks (text : List Char) : List Char :=
  text.dropWhile isBlank

/-- A character that needs no escape, quotes and backslashes apart: the tab, and
all but the control characters. -/
def isPlain (char : Char) : Bool :=
  char = '\t' || (0x20 ≤ char.toNat && char.toNat ≤ 0x7E) || 0x80 ≤ char.toNat

def skipComment : List Char → Option (List Char)
  | [] => some []
  | '\n' :: rest => some ('\n' :: rest)
  | '\r' :: '\n' :: rest => some ('\n' :: rest)
  | char :: rest => if isPlain char then skipComment rest else none

def endLine (text : List Char) : Option (List Char) :=
  let rest :=
    match skipBlanks text with
    | '#' :: rest => skipComment rest
    | rest => some rest
  match rest with
  | some [] => some []
  | some ('\n' :: rest) => some rest
  | some ('\r' :: '\n' :: rest) => some rest
  | _ => none

def skipBlankLines : List Char → List Char
  | ' ' :: rest => skipBlankLines rest
  | '\t' :: rest => skipBlankLines rest
  | '\n' :: rest => skipBlankLines rest
  | '\r' :: '\n' :: rest => skipBlankLines rest
  | text => text

/-- Passes blanks, ends of lines and comments, for at most `fuel` comments. -/
def skipFiller : (fuel : Nat) → List Char → Option (List Char)
  | 0, text => some text
  | fuel + 1, text =>
      match skipBlankLines text with
      | '#' :: rest =>
          match skipComment rest with
          | none => none
          | some rest => skipFiller fuel rest
      | rest => some rest

end Toml

end Simnet
