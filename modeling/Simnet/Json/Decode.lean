import Simnet.Clock
import Simnet.Json.Basic

namespace Simnet.Json

/-! Decoding of values. A record is written as an object, whose unknown fields are
skipped, or as an array of its fields in order. -/

def bool? : Json → Option Bool
  | bool value => some value
  | _ => none

def natUpTo? (limit : Nat) : Json → Option Nat
  | integer value => if 0 ≤ value ∧ value.toNat ≤ limit then some value.toNat else none
  | _ => none

def word? (value : Json) : Option Nat :=
  value.natUpTo? maxTime

def halfWord? (value : Json) : Option Nat :=
  value.natUpTo? maxHalfWord

def float? : Json → Option Float
  | float value => some value
  | integer value => some (Float.ofInt value)
  | _ => none

def string? : Json → Option String
  | string text => some text
  | _ => none

def list? {α : Type} (decode : Json → Option α) : Json → Option (List α)
  | array items => items.mapM decode
  | _ => none

def option? {α : Type} (decode : Json → Option α) : Json → Option (Option α)
  | null => some none
  | value => (decode value).map some

/-- The name of a variant and its data. A variant without data is its name alone;
any variant may be an object with that one field. -/
def variant? : Json → Option (String × Option Json)
  | string name => some (name, none)
  | object [(name, data)] => some (name, some data)
  | _ => none

def noData : Option Json → Option Unit
  | none | some null => some ()
  | some _ => none

def unitVariant? {α : Type} (ofTag? : String → Option α) (value : Json) : Option α := do
  let (name, data) ← value.variant?
  noData data
  ofTag? name

structure Record where
  /-- Whether the record was an array; then no field may be missing that lacks a
  default. -/
  positional : Bool
  fields : List (String × Json)

/-- Finds the named fields. A field given twice is refused, and so is an array
that is longer than the list of names. -/
def record? (names : List String) : Json → Option Record
  | object fields =>
      let known := fields.filter fun field => names.contains field.1
      if (known.map (·.1)).Nodup then
        some ⟨false, known⟩
      else
        none
  | array items =>
      if items.length ≤ names.length then
        some ⟨true, names.zip items⟩
      else
        none
  | _ => none

namespace Record

def find? (record : Record) (name : String) : Option Json :=
  record.fields.lookup name

def required {α : Type} (record : Record) (name : String) (decode : Json → Option α) :
    Option α :=
  (record.find? name).bind decode

/-- A field that stands for nothing when an object lacks it. -/
def optional {α : Type} (record : Record) (name : String) (decode : Json → Option α) :
    Option (Option α) :=
  match record.find? name with
  | some value => value.option? decode
  | none => if record.positional then none else some none

def defaulted {α : Type} (record : Record) (name : String) (default : α)
    (decode : Json → Option α) : Option α :=
  match record.find? name with
  | some value => decode value
  | none => some default

end Record

end Simnet.Json
