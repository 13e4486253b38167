import Simnet.Monitor

namespace Simnet

/-! Lock-step replay. A simulation and a copy of it that was built anew are run by
equal steps; their snapshots are compared after each, and the first difference is
reported. -/

inductive ReplayError
  | simulation (source : Error)
  | config (text : String)
  | toml
  | serialization
deriving DecidableEq

namespace ReplayError

def message : ReplayError → String
  | simulation source => "Simulation error: " ++ source.message
  | config text => "Configuration error: " ++ text
  | toml => "TOML error"
  | serialization => "Serialization error"

end ReplayError

structure ReplayConfig where
  seed : Nat
  stepMs : Nat
  steps : Nat
  stopOnDivergence : Bool := true
  monitor : MonitorConfig := {}
deriving DecidableEq

namespace ReplayConfig

def validate (config : ReplayConfig) : Except ReplayError Unit :=
  if config.stepMs = 0 then
    .error (.config "step_ms must be positive")
  else if config.steps = 0 then
    .error (.config "steps must be positive")
  else
    .ok ()

end ReplayConfig

structure StepSummary where
  step : Nat
  time : Nat
  matched : Bool
  doneNodes : Nat
  messagesDelivered : Nat
deriving DecidableEq, Repr

namespace StepSummary

def ofSnapshots (step : Nat) (primary copy : Snapshot) : StepSummary where
  step := step
  time := primary.time
  matched := primary = copy
  doneNodes := primary.doneCount
  messagesDelivered := primary.counters.messagesDelivered

end StepSummary

structure Divergence where
  step : Nat
  time : Nat
  /-- Absent when only the time or the counters of the network differ. -/
  node : Option Nat
  primary : Option NodeSnapshot
  copy : Option NodeSnapshot
deriving DecidableEq, Repr

namespace Divergence

def between (step : Nat) (primary copy : Snapshot) : Divergence :=
  let node := primary.firstDifference copy
  { step := step
    time := primary.time
    node := node
    primary := node.bind fun id => primary.nodes[id]?
    copy := node.bind fun id => copy.nodes[id]? }

end Divergence

structure ReplayReport where
  seed : Nat
  stepMs : Nat
  stepsRun : Nat
  steps : List StepSummary
  divergence : Option Divergence
  alerts : List Alert
  finalSnapshot : Snapshot
deriving DecidableEq

namespace ReplayReport

def isDeterministic (report : ReplayReport) : Bool :=
  report.divergence.isNone

end ReplayReport

/-- A simulation that can be built again. `copy` builds a fresh one from the same
parameters, whatever was done to this one. A run without a result is one that
does not come to an end. -/
structure Rebuildable (σ : Type) where
  copy : σ → σ
  run : (milliseconds : Nat) → σ → Option (Except Error Unit × σ)
  snapshot : σ → Snapshot

structure LockStep (σ : Type) where
  config : ReplayConfig
  primary : σ
  copy : σ
  monitor : Monitor
  summaries : List StepSummary := []
  divergence : Option Divergence := none

namespace LockStep

variable {σ : Type}

def new (rebuildable : Rebuildable σ) (config : ReplayConfig) (primary : σ) :
    Except ReplayError (LockStep σ) :=
  match config.validate with
  | .error error => .error error
  | .ok () => .ok {
      config := config
      primary := primary
      copy := rebuildable.copy primary
      monitor := .new config.monitor }

def advance (rebuildable : Rebuildable σ) (state : LockStep σ) :
    Option (Except ReplayError (LockStep σ)) :=
  match rebuildable.run state.config.stepMs state.primary with
  | none => none
  | some (.error error, _) => some (.error (.simulation error))
  | some (.ok (), primary) =>
      match rebuildable.run state.config.stepMs state.copy with
      | none => none
      | some (.error error, _) => some (.error (.simulation error))
      | some (.ok (), copy) => some (.ok { state with primary := primary, copy := copy })

def compare (rebuildable : Rebuildable σ) (step : Nat) (state : LockStep σ) : LockStep σ :=
  let primary := rebuildable.snapshot state.primary
  let copy := rebuildable.snapshot state.copy
  { state with
    monitor := (state.monitor.observe primary).2
    summaries := state.summaries ++ [.ofSnapshots step primary copy]
    divergence :=
      if primary = copy then
        state.divergence
      else
        state.divergence.or (some (.between step primary copy)) }

def stops (state : LockStep σ) : Bool :=
  state.config.stopOnDivergence &&
    (state.summaries.getLast?.any fun summary => ! summary.matched)

/-- Runs up to `remaining` further steps, the first of them having number `step`. -/
def steps (rebuildable : Rebuildable σ) : (remaining step : Nat) → LockStep σ →
    Option (Except ReplayError (LockStep σ))
  | 0, _, state => some (.ok state)
  | remaining + 1, step, state =>
      match advance rebuildable state with
      | none => none
      | some (.error error) => some (.error error)
      | some (.ok state) =>
          let state := compare rebuildable step state
          if state.stops then
            some (.ok state)
          else
            steps rebuildable remaining (step + 1) state

def report (rebuildable : Rebuildable σ) (state : LockStep σ) : ReplayReport where
  seed := state.config.seed
  stepMs := state.config.stepMs
  stepsRun := state.summaries.length
  steps := state.summaries
  divergence := state.divergence
  alerts := state.monitor.alerts
  finalSnapshot := rebuildable.snapshot state.primary

def run (rebuildable : Rebuildable σ) (state : LockStep σ) :
    Option (Except ReplayError ReplayReport) :=
  match steps rebuildable state.config.steps 1 state with
  | none => none
  | some (.error error) => some (.error error)
  | some (.ok state) => some (.ok (state.report rebuildable))

end LockStep

end Simnet
