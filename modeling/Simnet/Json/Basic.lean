namespace Simnet

/-! Structured data. Fields of an object keep their order, and a text may name a
field twice. -/

inductive Json
  | null
  | bool (value : Bool)
  | integer (value : Int)
  | float (value : Float)
  | string (text : String)
  | array (items : List Json)
  | object (fields : List (String × Json))
  /-- Well-formed text that stands for nothing: a number out of range, or a text
  with half of a surrogate pair. It may be skipped but not decoded. -/
  | unrepresentable

namespace Json

def ofNat (number : Nat) : Json :=
  integer number

def ofOption {α : Type} (encode : α → Json) : Option α → Json
  | none => null
  | some value => encode value

def ofList {α : Type} (encode : α → Json) (values : List α) : Json :=
  array (values.map encode)

def ofNats (numbers : List Nat) : Json :=
  ofList ofNat numbers

end Json

end Simnet
