import Simnet.Toml.Text

namespace Simnet.Toml

/-! Tables while a document is read. How a table came about decides what may still
be added to it. -/

inductive Origin
  /-- It has a header of its own, or stands in braces. -/
  | stated
  /-- It was passed on the way to a header. -/
  | passed
  /-- It was made by a dotted key. -/
  | dotted
deriving DecidableEq

inductive Entry
  | value (value : Toml)
  | table (origin : Origin) (entries : List (String × Entry))
  /-- Tables under a doubled header; the last one is still open. -/
  | tables (items : List (List (String × Entry)))

abbrev Entries := List (String × Entry)

namespace Entries

def set (entries : Entries) (key : String) (entry : Entry) : Entries :=
  if (entries.lookup key).isSome then
    entries.map fun found => if found.1 = key then (key, entry) else found
  else
    entries ++ [(key, entry)]

def remove (entries : Entries) (key : String) : Entries :=
  entries.filter fun found => found.1 ≠ key

/-- Changes the table at the end of the path of a header, making the tables on the
way that are missing. Under a doubled header, the last table is meant. -/
def alongHeader {α : Type} (change : Entries → Option (α × Entries)) :
    List String → Entries → Option (α × Entries)
  | [], entries => change entries
  | key :: rest, entries =>
      match entries.lookup key with
      | none =>
          (alongHeader change rest []).map fun (result, inner) =>
            (result, entries.set key (.table .passed inner))
      | some (.table origin inner) =>
          (alongHeader change rest inner).map fun (result, inner) =>
            (result, entries.set key (.table origin inner))
      | some (.tables items) =>
          (alongHeader change rest (items.getLast?.getD [])).map fun (result, inner) =>
            (result, entries.set key (.tables (items.dropLast ++ [inner])))
      | some (.value _) => none

/-- Puts a value under a dotted key. The tables on the way must be missing, or come
from dotted keys as well; the key itself must be new. -/
def insertDotted (value : Toml) : List String → Entries → Option Entries
  | [], _ => none
  | [key], entries =>
      match entries.lookup key with
      | none => some (entries.set key (.value value))
      | some _ => none
  | key :: rest, entries =>
      match entries.lookup key with
      | none =>
          (insertDotted value rest []).map fun inner =>
            entries.set key (.table .dotted inner)
      | some (.table .dotted inner) =>
          (insertDotted value rest inner).map fun inner =>
            entries.set key (.table .dotted inner)
      | some (.table .passed inner) =>
          match rest with
          | [] | [_] => none
          | _ =>
              (insertDotted value rest inner).map fun inner =>
                entries.set key (.table .passed inner)
      | some (.tables items) =>
          match rest with
          | [] | [_] => none
          | _ =>
              (insertDotted value rest (items.getLast?.getD [])).map fun inner =>
                entries.set key (.tables (items.dropLast ++ [inner]))
      | some _ => none

end Entries

mutual

def Entry.toToml : Entry → Toml
  | .value value => value
  | .table _ entries => .table (Entries.toFields entries)
  | .tables items => .array (Entries.toTables items)

def Entries.toFields : Entries → List (String × Toml)
  | [] => []
  | (key, entry) :: rest => (key, entry.toToml) :: Entries.toFields rest

def Entries.toTables : List Entries → List Toml
  | [] => []
  | entries :: rest => .table (Entries.toFields entries) :: Entries.toTables rest

end

/-- A document up to the current line. The table whose lines are being read is
kept apart from the others until the next header. -/
structure Draft where
  root : Entries := []
  current : Entries := []
  path : List String := []
  doubled : Bool := false

namespace Draft

def place (doubled : Bool) (table : Entries) : Option Entry → Option Entry
  | none => some (if doubled then .tables [table] else .table .stated table)
  | some (.tables items) => if doubled then some (.tables (items ++ [table])) else none
  | some _ => none

def close (draft : Draft) : Option Entries :=
  match draft.path.reverse with
  | [] => some draft.current
  | key :: parents =>
      (Entries.alongHeader (fun parent =>
        (place draft.doubled draft.current (parent.lookup key)).map fun entry =>
          ((), parent.set key entry)) parents.reverse draft.root).map (·.2)

/-- Starts the table of a single header. Only a table that was passed before may
be there already; it is taken out, and its contents are kept. -/
def openTable (path : List String) (root : Entries) : Option Draft :=
  match path.reverse with
  | [] => none
  | key :: parents =>
      (Entries.alongHeader (fun parent =>
        match parent.lookup key with
        | none => some ([], parent)
        | some (.table .passed inner) => some (inner, parent.remove key)
        | some _ => none) parents.reverse root).map fun (current, root) =>
          { root := root, current := current, path := path, doubled := false }

def openDoubled (path : List String) (root : Entries) : Option Draft :=
  match path.reverse with
  | [] => none
  | key :: parents =>
      (Entries.alongHeader (fun parent =>
        match parent.lookup key with
        | none => some ((), parent)
        | some (.tables _) => some ((), parent)
        | some _ => none) parents.reverse root).map fun (_, root) =>
          { root := root, current := [], path := path, doubled := true }

def add (draft : Draft) (key : List String) (value : Toml) : Option Draft :=
  (draft.current.insertDotted value key).map fun current =>
    { draft with current := current }

end Draft

end Simnet.Toml
