import Simnet.LockStep
import Simnet.Toml.Document

namespace Simnet

/-! Configuration documents. Unknown keys are passed over. A record may also be
written as an array of its fields in order, and a date or time counts as a record
without known fields. -/

namespace Toml

def natUpTo? (limit : Nat) : Toml → Option Nat
  | integer value => if 0 ≤ value ∧ value.toNat ≤ limit then some value.toNat else none
  | _ => none

def word? (value : Toml) : Option Nat :=
  value.natUpTo? maxTime

def halfWord? (value : Toml) : Option Nat :=
  value.natUpTo? maxHalfWord

def float? : Toml → Option Float
  | float value => some value
  | integer value => some (Float.ofInt value)
  | _ => none

def bool? : Toml → Option Bool
  | boolean value => some value
  | _ => none

def record? (names : List String) : Toml → Option (List (String × Toml))
  | table fields => some fields
  | array items => some (names.zip items)
  | dateTime => some []
  | _ => none

def required {α : Type} (fields : List (String × Toml)) (name : String)
    (decode : Toml → Option α) : Option α :=
  (fields.lookup name).bind decode

def defaulted {α : Type} (fields : List (String × Toml)) (name : String) (default : α)
    (decode : Toml → Option α) : Option α :=
  match fields.lookup name with
  | some value => decode value
  | none => some default

end Toml

namespace MonitorConfig

def ofToml? (value : Toml) : Option MonitorConfig := do
  let fields ← value.record? ["stall_steps", "max_drop_rate", "min_attempts"]
  let default : MonitorConfig := {}
  some {
    stallSteps := ← Toml.defaulted fields "stall_steps" default.stallSteps Toml.halfWord?
    maxDropRate := ← Toml.defaulted fields "max_drop_rate" default.maxDropRate Toml.float?
    minAttempts := ← Toml.defaulted fields "min_attempts" default.minAttempts Toml.word? }

def ofDocument (text : String) : Except ReplayError MonitorConfig :=
  match (Toml.parse text).bind fun fields => ofToml? (.table fields) with
  | some config => .ok config
  | none => .error .toml

end MonitorConfig

namespace ReplayConfig

def ofToml? (value : Toml) : Option ReplayConfig := do
  let fields ← value.record? ["seed", "step_ms", "steps", "stop_on_divergence", "monitor"]
  some {
    seed := ← Toml.required fields "seed" Toml.word?
    stepMs := ← Toml.required fields "step_ms" Toml.word?
    steps := ← Toml.required fields "steps" Toml.halfWord?
    stopOnDivergence := ← Toml.defaulted fields "stop_on_divergence" true Toml.bool?
    monitor := ← Toml.defaulted fields "monitor" {} MonitorConfig.ofToml? }

def ofDocument (text : String) : Except ReplayError ReplayConfig :=
  match (Toml.parse text).bind fun fields => ofToml? (.table fields) with
  | none => .error .toml
  | some config =>
      match config.validate with
      | .error error => .error error
      | .ok () => .ok config

end ReplayConfig

end Simnet
