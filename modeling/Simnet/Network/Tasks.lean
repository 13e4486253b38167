import Simnet.Network.Basic

namespace Simnet

/-! Registration of tasks. Tasks share the queue with deliveries. -/

namespace Network

variable {P : Protocol}

def pushTask (network : Network P) (time : Nat) (record : ScheduledTask P) : Network P :=
  { network with queue := network.queue.push time (.task record) }

/-- Registers a task for its first instant and gives it the next number. -/
def schedule (network : Network P) (task : P.Task) (start owner : Nat)
    (kind : Recurrence) : Outcome P Nat :=
  match network.node? owner with
  | none => (.error (.unknownNode owner), network)
  | some _ =>
      if start < network.time then
        (.error (.scheduleInPast network.time start), network)
      else if kind.period? = some 0 then
        (.error (.invalidParameter .zeroPeriod), network)
      else
        let id := network.nextTask
        (.ok id, { network with nextTask := id + 1 }.pushTask start ⟨id, owner, kind, task⟩)

def registerTask (network : Network P) (task : P.Task) (start owner : Nat) :
    Outcome P Nat :=
  network.schedule task start owner .oneShot

def registerPeriodicTask (network : Network P) (task : P.Task)
    (start period owner : Nat) : Outcome P Nat :=
  network.schedule task start owner (.periodic period)

def registerConditionalTask (network : Network P) (task : P.Task)
    (start period owner : Nat) : Outcome P Nat :=
  network.schedule task start owner (.conditional period)

end Network

end Simnet
