import Simnet.Snapshot

namespace Simnet

/-! Watching a run. The monitor is shown one snapshot after each step and raises
an alert when deliveries stop, when too many sends are dropped and when nodes go
down. -/

structure MonitorConfig where
  /-- The steps without a delivery after which a run counts as stalled. -/
  stallSteps : Nat := 10
  maxDropRate : Float := 0.5
  minAttempts : Nat := 20
deriving DecidableEq

inductive AlertKind
  | stalled
  | highDropRate
  | nodesDown
deriving DecidableEq, Repr

structure Alert where
  kind : AlertKind
  step : Nat
  time : Nat
  message : String
  /-- Named numbers, sorted by name, each name once. -/
  metrics : List (String × Float) := []
deriving DecidableEq

namespace Alert

def insertMetric (name : String) (value : Float) :
    List (String × Float) → List (String × Float)
  | [] => [(name, value)]
  | (other, held) :: rest =>
      if name < other then
        (name, value) :: (other, held) :: rest
      else if name = other then
        (name, value) :: rest
      else
        (other, held) :: insertMetric name value rest

def withMetric (alert : Alert) (name : String) (value : Float) : Alert :=
  { alert with metrics := insertMetric name value alert.metrics }

def stalled (step time quietSteps pending : Nat) : Alert :=
  Alert.withMetric
    { kind := .stalled, step := step, time := time
      message := s!"no delivery for {quietSteps} steps" }
    "pending_nodes" (Float.ofNat pending)

def highDropRate (step time : Nat) (rate : Float) (attempts : Nat) : Alert :=
  (Alert.withMetric
    { kind := .highDropRate, step := step, time := time
      message := Decimal.wholeText (rate * 100) ++ "% of sends dropped" }
    "drop_rate" rate).withMetric "attempts" (Float.ofNat attempts)

def nodesDown (step time down before : Nat) : Alert :=
  Alert.withMetric
    { kind := .nodesDown, step := step, time := time
      message := s!"{down} nodes down, was {before}" }
    "down" (Float.ofNat down)

end Alert

structure Monitor where
  config : MonitorConfig
  step : Nat := 0
  lastDelivered : Nat := 0
  quietSteps : Nat := 0
  lastDown : Nat := 0
  dropRateFlagged : Bool := false
  alerts : List Alert := []
deriving DecidableEq

namespace Monitor

def new (config : MonitorConfig) : Monitor where
  config := config

def quietStepsAt (monitor : Monitor) (snapshot : Snapshot) : Nat :=
  if snapshot.counters.messagesDelivered = monitor.lastDelivered then
    monitor.quietSteps + 1
  else
    0

/-- Raised at the step that completes a stall, while some node is not done. -/
def stallAlert? (monitor : Monitor) (snapshot : Snapshot) : Option Alert :=
  let quietSteps := monitor.quietStepsAt snapshot
  if 0 < quietSteps ∧ quietSteps = monitor.config.stallSteps ∧
      0 < snapshot.pendingCount then
    some (.stalled (monitor.step + 1) snapshot.time quietSteps snapshot.pendingCount)
  else
    none

def dropRate (counters : Counters) : Float :=
  Float.ofNat counters.dropped / Float.ofNat counters.attempts

/-- Raised once, at the first step with enough sends and too many drops. -/
def dropRateAlert? (monitor : Monitor) (snapshot : Snapshot) :
    Option Alert :=
  let counters := snapshot.counters
  if monitor.dropRateFlagged = false ∧ monitor.config.minAttempts ≤ counters.attempts ∧
      monitor.config.maxDropRate < dropRate counters then
    some (.highDropRate (monitor.step + 1) snapshot.time (dropRate counters) counters.attempts)
  else
    none

def downAlert? (monitor : Monitor) (snapshot : Snapshot) : Option Alert :=
  if monitor.lastDown < snapshot.downCount then
    some (.nodesDown (monitor.step + 1) snapshot.time snapshot.downCount monitor.lastDown)
  else
    none

def raised (monitor : Monitor) (snapshot : Snapshot) : List Alert :=
  (monitor.stallAlert? snapshot).toList ++ (monitor.dropRateAlert? snapshot).toList ++
    (monitor.downAlert? snapshot).toList

def observe (monitor : Monitor) (snapshot : Snapshot) :
    List Alert × Monitor :=
  let raised := monitor.raised snapshot
  (raised, { monitor with
    step := monitor.step + 1
    lastDelivered := snapshot.counters.messagesDelivered
    quietSteps := monitor.quietStepsAt snapshot
    lastDown := snapshot.downCount
    dropRateFlagged := monitor.dropRateFlagged || (monitor.dropRateAlert? snapshot).isSome
    alerts := monitor.alerts ++ raised })

end Monitor

end Simnet
