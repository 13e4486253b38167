import Simnet.Clock
import Simnet.Node
import Simnet.Rng.Draw

namespace Simnet

/-! Delays of messages. A latency strategy is a function of the sender, the
receiver and the generator; it owns no randomness, so networks that are built
alike draw alike. -/

structure Latency where
  name : String
  delay : (sender receiver : NodeInfo) → Rng → Nat × Rng

/-- An additional delay of at most `most`; nothing is drawn when that is zero. -/
def jitter (most : Nat) (rng : Rng) : Nat × Rng :=
  if most = 0 then (0, rng) else rng.between .double 0 most

structure DistanceModel where
  base : Nat := 10
  span : Nat := 200
  jitter : Nat := 20
deriving DecidableEq, Repr

namespace DistanceModel

/-- The part of the delay that is not random. The product is kept within the
range of times before it is divided. -/
def steady (model : DistanceModel) (sender receiver : NodeInfo) : Nat :=
  cappedAdd model.base
    (cappedMul model.span (sender.distance receiver) / max 1 maxDistance)

def delay (model : DistanceModel) (sender receiver : NodeInfo) (rng : Rng) :
    Nat × Rng :=
  let (addition, rng) := Simnet.jitter model.jitter rng
  (cappedAdd (model.steady sender receiver) addition, rng)

end DistanceModel

def proportionalDelay (base percent : Nat) (rng : Rng) : Nat × Rng :=
  let (addition, rng) := jitter (base * percent / 100) rng
  (cappedAdd base addition, rng)

/-- The provided models. The two that use measured tables fall back on distance
for nodes without the mark they need. -/
inductive LatencyModel
  | none
  | fixed (delay : Nat)
  | uniform (most : Nat)
  | distance (model : DistanceModel)
  | cloudRegions (percent : Nat) (fallback : DistanceModel)
  | cities (percent : Nat) (fallback : DistanceModel)
deriving DecidableEq, Repr

namespace LatencyModel

def name : LatencyModel → String
  | none => "none"
  | fixed _ => "fixed"
  | uniform _ => "uniform"
  | distance _ => "distance"
  | cloudRegions _ _ => "aws-regions"
  | cities _ _ => "cities"

def delay (model : LatencyModel) (sender receiver : NodeInfo) (rng : Rng) :
    Nat × Rng :=
  match model with
  | none => (0, rng)
  | fixed delay => (delay, rng)
  | uniform most => rng.between .double 0 most
  | distance model => model.delay sender receiver rng
  | cloudRegions percent fallback =>
      match sender.location.region, receiver.location.region with
      | some (.cloud origin), some (.cloud target) =>
          proportionalDelay (origin.oneWay target) percent rng
      | _, _ => fallback.delay sender receiver rng
  | cities percent fallback =>
      match sender.location.region, receiver.location.region with
      | some (.city origin), some (.city target) =>
          proportionalDelay (origin.oneWay target) percent rng
      | _, _ => fallback.delay sender receiver rng

def latency (model : LatencyModel) : Latency where
  name := model.name
  delay := model.delay

end LatencyModel

structure DelaySummary where
  samples : Nat
  min : Nat
  average : Float
  max : Nat

namespace DelaySummary

def ofDelays (delays : List Nat) : Option DelaySummary :=
  match delays with
  | [] => none
  | first :: rest =>
      some {
        samples := delays.length
        min := rest.foldl Min.min first
        average := Float.ofNat (delays.foldr (· + ·) 0) / Float.ofNat delays.length
        max := rest.foldl Max.max first }

end DelaySummary

namespace Latency

/-- One delay between two different drawn nodes: the second index is drawn from
one place fewer, and moved past the first. -/
def samplePair (latency : Latency) (nodes : List NodeInfo) (rng : Rng) :
    Option Nat × Rng :=
  let (first, rng) := rng.below .double nodes.length
  let (drawn, rng) := rng.below .double (nodes.length - 1)
  let second := if first ≤ drawn then drawn + 1 else drawn
  match nodes[first]?, nodes[second]? with
  | some sender, some receiver =>
      let (delay, rng) := latency.delay sender receiver rng
      (some delay, rng)
  | _, _ => (none, rng)

end Latency

def collectSamples (sample : Rng → Option Nat × Rng) : (count : Nat) → Rng → List Nat × Rng
  | 0, rng => ([], rng)
  | count + 1, rng =>
      let (delay, rng) := sample rng
      let (delays, rng) := collectSamples sample count rng
      (delay.toList ++ delays, rng)

namespace Latency

def estimate (latency : Latency) (nodes : List NodeInfo) (samples : Nat) (rng : Rng) :
    Option DelaySummary × Rng :=
  if nodes.length < 2 then
    (none, rng)
  else
    let (delays, rng) := collectSamples (latency.samplePair nodes) samples rng
    (DelaySummary.ofDelays delays, rng)

end Latency

end Simnet
