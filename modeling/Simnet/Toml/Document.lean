import Simnet.Toml.Table

namespace Simnet.Toml

/-! Option (values × List Char) and whole documents. -/

def readLimitedKey (text : List Char) : Option (List String × List Char) :=
  match readKey (text.length + 1) text with
  | some (key, rest) => if key.length < maxDepth then some (key, rest) else none
  | none => none

mutual

/-- Reads a value; `depth` levels are open around it, and the fuel bounds the
number of items. -/
def readValue : (fuel depth : Nat) → List Char → Option (Toml × List Char)
  | 0, _, _ => none
  | fuel + 1, depth, text =>
      match text with
      | '"' :: _ | '\'' :: _ =>
          (readText text).map fun (chars, rest) => (.quoted (String.ofList chars), rest)
      | '[' :: rest =>
          if depth + 1 < maxDepth then
            match skipFiller (rest.length + 1) rest with
            | none => none
            | some (']' :: rest) => some (.array [], rest)
            | some rest =>
                (readItems fuel (depth + 1) rest).map fun (items, rest) => (.array items, rest)
          else
            none
      | '\x7b' :: rest =>
          if depth + 1 < maxDepth then
            match skipBlanks rest with
            | '\x7d' :: rest => some (.table [], rest)
            | rest =>
                (readFields fuel (depth + 1) [] rest).map fun (entries, rest) =>
                  (.table (Entries.toFields entries), rest)
          else
            none
      | 't' :: 'r' :: 'u' :: 'e' :: rest => some (.boolean true, rest)
      | 'f' :: 'a' :: 'l' :: 's' :: 'e' :: rest => some (.boolean false, rest)
      | text => readNumber text

/-- Reads at least one item of an array, up to the closing bracket. Comments and
ends of lines may stand around items, and a comma after the last one. -/
def readItems : (fuel depth : Nat) → List Char → Option (List Toml × List Char)
  | 0, _, _ => none
  | fuel + 1, depth, text =>
      match readValue fuel depth text with
      | none => none
      | some (item, rest) =>
          match skipFiller (rest.length + 1) rest with
          | some (']' :: rest) => some ([item], rest)
          | some (',' :: rest) =>
              match skipFiller (rest.length + 1) rest with
              | none => none
              | some (']' :: rest) => some ([item], rest)
              | some rest =>
                  (readItems fuel depth rest).map fun (items, rest) => (item :: items, rest)
          | _ => none

def readFields : (fuel depth : Nat) → Entries → List Char → Option (Entries × List Char)
  | 0, _, _, _ => none
  | fuel + 1, depth, entries, text =>
      match readLimitedKey text with
      | some (key, '=' :: rest) =>
          match readValue fuel depth (skipBlanks rest) with
          | none => none
          | some (value, rest) =>
              match entries.insertDotted value key, skipBlanks rest with
              | some entries, '\x7d' :: rest => some (entries, rest)
              | some entries, ',' :: rest => readFields fuel depth entries rest
              | _, _ => none
      | _ => none

end

def readLine (draft : Draft) (text : List Char) : Option (Draft × List Char) :=
  match readLimitedKey text with
  | some (key, '=' :: rest) =>
      match readValue (2 * rest.length + 2) 0 (skipBlanks rest) with
      | none => none
      | some (value, rest) => do
          let rest ← endLine rest
          let draft ← draft.add key value
          return (draft, rest)
  | _ => none

def readHeader (draft : Draft) (doubled : Bool) (text : List Char) : Option (Draft × List Char) := do
  let (path, rest) ← readLimitedKey text
  let rest ← expect ']' rest
  let rest ← if doubled then expect ']' rest else some rest
  let rest ← endLine rest
  let root ← draft.close
  let draft ← if doubled then Draft.openDoubled path root else Draft.openTable path root
  return (draft, rest)

def readLines : (fuel : Nat) → Draft → List Char → Option Draft
  | 0, _, _ => none
  | fuel + 1, draft, text =>
      match skipBlankLines text with
      | [] => some draft
      | '#' :: rest =>
          match endLine ('#' :: rest) with
          | none => none
          | some rest => readLines fuel draft rest
      | '[' :: '[' :: rest =>
          match readHeader draft true rest with
          | none => none
          | some (draft, rest) => readLines fuel draft rest
      | '[' :: rest =>
          match readHeader draft false rest with
          | none => none
          | some (draft, rest) => readLines fuel draft rest
      | text =>
          match readLine draft text with
          | none => none
          | some (draft, rest) => readLines fuel draft rest

def dropEncodingMark : List Char → List Char
  | first :: rest => if first.toNat = 0xFEFF then rest else first :: rest
  | [] => []

def parse (text : String) : Option (List (String × Toml)) :=
  let chars := dropEncodingMark text.toList
  match readLines (chars.length + 1) {} chars with
  | none => none
  | some draft => draft.close.map Entries.toFields

end Simnet.Toml
