import Simnet.LockStep
import Simnet.Script.Session

namespace Simnet.Script

/-! Scenarios: scripted simulations that can be built again and replayed. -/

structure Scenario where
  config : NetworkConfig
  latency : LatencyModel
  setup : List Command
  /-- Commands to be performed before the runs with the given numbers. -/
  script : List (Nat × List Command) := []

structure Simulation (rule : ForkRule) where
  network : Network (scripted rule)
  runs : Nat := 0
  script : List (Nat × List Command)
  /-- What a copy is built from. -/
  source : Scenario

variable {rule : ForkRule}

namespace Simulation

def setUp : List Command → Network (scripted rule) → Network (scripted rule)
  | [], network => network
  | command :: rest, network =>
      match command.exec network with
      | none => setUp rest network
      | some (_, network) => setUp rest network

def build (scenario source : Scenario) : Simulation rule where
  network := setUp scenario.setup (newNetwork rule scenario.config scenario.latency)
  script := scenario.script
  source := source

def copy (simulation : Simulation rule) : Simulation rule :=
  build simulation.source simulation.source

def commandsBefore (simulation : Simulation rule) (run : Nat) : List Command :=
  (simulation.script.lookup run).getD []

def run (milliseconds : Nat) (simulation : Simulation rule) :
    Option (Except Error Unit × Simulation rule) :=
  let number := simulation.runs + 1
  let commands := simulation.commandsBefore number ++ [.runFor milliseconds]
  match execAll commands simulation.network with
  | none => none
  | some (result, network) =>
      some (result, { simulation with network := network, runs := number })

def rebuildable : Rebuildable (Simulation rule) where
  copy := copy
  run := run
  snapshot := fun simulation => simulation.network.snapshot

end Simulation

structure ReplayOutcome where
  startSame : Bool
  report : ReplayReport

def replay (rule : ForkRule) (config : ReplayConfig) (scenario source : Scenario) :
    Option (Except ReplayError ReplayOutcome) :=
  let primary : Simulation rule := .build scenario source
  match LockStep.new Simulation.rebuildable config primary with
  | .error error => some (.error error)
  | .ok state =>
      let same := state.primary.network.snapshot = state.copy.network.snapshot
      match state.run Simulation.rebuildable with
      | none => none
      | some (.error error) => some (.error error)
      | some (.ok report) => some (.ok ⟨same, report⟩)

end Simnet.Script
