import Simnet.Toml.Number

namespace Simnet.Toml

/-! Quoted texts and keys. -/

def readHexEscape (count : Nat) (text : List Char) : Option (Char × List Char) :=
  let digits := text.take count
  let value := ofDigits 16 digits
  if digits.length = count ∧ digits.all isHexDigit ∧ value.isValidChar then
    some (Char.ofNat value, text.drop count)
  else
    none

def readEscape : List Char → Option (Char × List Char)
  | 'b' :: rest => some (Char.ofNat 8, rest)
  | 't' :: rest => some ('\t', rest)
  | 'n' :: rest => some ('\n', rest)
  | 'f' :: rest => some (Char.ofNat 12, rest)
  | 'r' :: rest => some ('\r', rest)
  | '"' :: rest => some ('"', rest)
  | '\\' :: rest => some ('\\', rest)
  | 'u' :: rest => readHexEscape 4 rest
  | 'U' :: rest => readHexEscape 8 rest
  | _ => none

/-- A text between double quotes on one line, after the opening quote. -/
def readBasic : (fuel : Nat) → List Char → Option (List Char × List Char)
  | 0, _ => none
  | _ + 1, [] => none
  | _ + 1, '"' :: rest => some ([], rest)
  | fuel + 1, '\\' :: rest => do
      let (char, rest) ← readEscape rest
      let (chars, rest) ← readBasic fuel rest
      return (char :: chars, rest)
  | fuel + 1, char :: rest => do
      if isPlain char then
        let (chars, rest) ← readBasic fuel rest
        return (char :: chars, rest)
      else
        none

def readLiteral : List Char → Option (List Char × List Char)
  | [] => none
  | '\'' :: rest => some ([], rest)
  | char :: rest => do
      if isPlain char then
        let (chars, rest) ← readLiteral rest
        return (char :: chars, rest)
      else
        none

/-- The quotes, two at most, that stand before a closing group of three. -/
def closingQuotes (quote : Char) : List Char → List Char × List Char
  | first :: second :: rest =>
      if first = quote then
        if second = quote then ([quote, quote], rest) else ([quote], second :: rest)
      else
        ([], first :: second :: rest)
  | [first] => if first = quote then ([quote], []) else ([], [first])
  | [] => ([], [])

/-- After a backslash at the end of a line: passes the line ends and blanks that
follow; none when the line does not end there. -/
def continueLine (text : List Char) : Option (List Char) :=
  match skipBlanks text with
  | '\n' :: rest => some (skipBlankLines rest)
  | '\r' :: '\n' :: rest => some (skipBlankLines rest)
  | _ => none

/-- A text between groups of three double quotes, after the opening group. -/
def readLongBasic : (fuel : Nat) → List Char → Option (List Char × List Char)
  | 0, _ => none
  | _ + 1, [] => none
  | _ + 1, '"' :: '"' :: '"' :: rest => some (closingQuotes '"' rest)
  | fuel + 1, '\\' :: rest =>
      match continueLine rest with
      | some rest => readLongBasic fuel rest
      | none => do
          let (char, rest) ← readEscape rest
          let (chars, rest) ← readLongBasic fuel rest
          return (char :: chars, rest)
  | fuel + 1, '\r' :: '\n' :: rest => do
      let (chars, rest) ← readLongBasic fuel rest
      return ('\n' :: chars, rest)
  | fuel + 1, char :: rest => do
      if isPlain char || char = '\n' then
        let (chars, rest) ← readLongBasic fuel rest
        return (char :: chars, rest)
      else
        none

def readLongLiteral : List Char → Option (List Char × List Char)
  | [] => none
  | '\'' :: '\'' :: '\'' :: rest => some (closingQuotes '\'' rest)
  | '\r' :: '\n' :: rest => do
      let (chars, rest) ← readLongLiteral rest
      return ('\n' :: chars, rest)
  | char :: rest => do
      if isPlain char || char = '\n' then
        let (chars, rest) ← readLongLiteral rest
        return (char :: chars, rest)
      else
        none

/-- A line end right after the opening group does not belong to the text. -/
def dropFirstLineEnd : List Char → List Char
  | '\n' :: rest => rest
  | '\r' :: '\n' :: rest => rest
  | text => text

def readText (text : List Char) : Option (List Char × List Char) :=
  match text with
  | '"' :: '"' :: '"' :: rest => readLongBasic (rest.length + 1) (dropFirstLineEnd rest)
  | '"' :: rest => readBasic (rest.length + 1) rest
  | '\'' :: '\'' :: '\'' :: rest => readLongLiteral (dropFirstLineEnd rest)
  | '\'' :: rest => readLiteral rest
  | _ => none

def isKeyChar (char : Char) : Bool :=
  char.isAlphanum || char = '_' || char = '-'

def readKeyPart (text : List Char) : Option (String × List Char) :=
  match text with
  | '"' :: rest =>
      (readBasic (rest.length + 1) rest).map fun (chars, rest) => (String.ofList chars, rest)
  | '\'' :: rest => (readLiteral rest).map fun (chars, rest) => (String.ofList chars, rest)
  | _ =>
      match text.takeWhile isKeyChar with
      | [] => none
      | chars => some (String.ofList chars, text.dropWhile isKeyChar)

def readKey : (fuel : Nat) → List Char → Option (List String × List Char)
  | 0, _ => none
  | fuel + 1, text =>
      match readKeyPart (skipBlanks text) with
      | none => none
      | some (part, rest) =>
          match skipBlanks rest with
          | '.' :: rest =>
              match readKey fuel rest with
              | none => none
              | some (parts, rest) => some (part :: parts, rest)
          | rest => some ([part], rest)

/-- Keys have fewer parts, and values fewer levels, than this. -/
def maxDepth : Nat := 80

end Simnet.Toml
