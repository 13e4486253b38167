import Simnet.Json.Basic
import Simnet.Rng.Draw

namespace Simnet.Script

/-! Draws named by a script. -/

inductive Draw
  | word
  | doubleWord
  | between (width : Width) (low high : Nat)
  | choose (count : Nat)
  | shuffle (count : Nat)
deriving DecidableEq, Repr

namespace Draw

def sample (draw : Draw) (rng : Rng) : Json × Rng :=
  match draw with
  | word =>
      let (value, rng) := rng.raw .single
      (.ofNat value, rng)
  | doubleWord =>
      let (value, rng) := rng.raw .double
      (.ofNat value, rng)
  | between width low high =>
      let (value, rng) := rng.between width low high
      (.ofNat value, rng)
  | choose count =>
      let (value, rng) := rng.choose (List.range count)
      (.ofOption .ofNat value, rng)
  | shuffle count =>
      let (values, rng) := rng.shuffle (List.range count)
      (.ofNats values, rng)

def sampleAll : List Draw → Rng → List Json × Rng
  | [], rng => ([], rng)
  | draw :: rest, rng =>
      let (value, rng) := draw.sample rng
      let (values, rng) := sampleAll rest rng
      (value :: values, rng)

end Draw

end Simnet.Script
