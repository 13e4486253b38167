import Simnet.Program

namespace Simnet

/-! Running a network. A run takes due events off the queue one by one, moves the
clock to each and executes it; afterwards the clock stands at the deadline. The
fuel bounds the number of events, and a run that needs more has no result. -/

abbrev Runner (P : Protocol) := (deadline : Nat) → Network P → Option (Outcome P Unit)

namespace Network

variable {P : Protocol}

def deadlineAfter (network : Network P) (milliseconds : Nat) : Except Error Nat :=
  timeAfter network.time milliseconds

def deadlineAfterSeconds (network : Network P) (seconds : Nat) : Except Error Nat :=
  if seconds * 1000 ≤ maxTime then
    network.deadlineAfter (seconds * 1000)
  else
    .error (.invalidParameter (.runOverflow seconds))

def runTo (run : Runner P) (deadline : Except Error Nat) (network : Network P) :
    Option (Outcome P Unit) :=
  match deadline with
  | .error error => some (.error error, network)
  | .ok deadline => run deadline network

end Network

namespace Op

variable {P : Protocol}

/-- Performs one operation; `run` does the running for those that run. -/
def perform (run : Runner P) (network : Network P) :
    (op : Op P) → Option (op.Answer × Network P)
  | read => some (network, network)
  | setRng rng => some ((), { network with rng := rng })
  | createNode placement byzantine => some (network.createNode placement byzantine)
  | addNode info state => some (network.addNode info state)
  | setState node state => some (network.setState node state)
  | setLocation node location => some (network.setLocation node location)
  | setInfo node info => some (network.setInfo node info)
  | setDown node down => some (network.setDown node down)
  | markDone node => some (network.markDone node)
  | sendToMany message origin sender receivers =>
      some (network.sendToMany message origin sender receivers)
  | sendAll message origin sender => some (network.sendAll message origin sender)
  | schedule task start owner kind => some (network.schedule task start owner kind)
  | partition groups => some (network.installPartition groups)
  | partitionByPosition fraction => some (network.partitionByPosition fraction)
  | endPartition => some ((), network.endPartition)
  | setPeers config => some (network.setPeers config)
  | createLink first second => some (network.createLink first second)
  | removeLink first second => some (network.removeLink first second)
  | disconnect node => some (network.disconnect node)
  | flood message header origin => some (network.flood message header origin)
  | receiveFlood message header sender receiver =>
      some (network.receiveFlood message header sender receiver)
  | createBlock proposal => some (network.createBlock proposal)
  | offerBlock node block => some (network.offerBlock node block)
  | runUntil deadline => run deadline network
  | runFor milliseconds => network.runTo run (network.deadlineAfter milliseconds)
  | runSeconds seconds => network.runTo run (network.deadlineAfterSeconds seconds)

end Op

namespace Program

variable {P : Protocol} {α : Type}

def exec (run : Runner P) : Program P α → Network P → Option (α × Network P)
  | pure value, network => some (value, network)
  | call op next, network =>
      match op.perform run network with
      | none => none
      | some (answer, network) => (next answer).exec run network

end Program

namespace Network

variable {P : Protocol}

/-- Executes a delivery. A receiver that went down meanwhile gets nothing. -/
def deliver (behaviour : Behaviour P) (run : Runner P) (network : Network P)
    (sender receiver : Nat) (message : P.Message) : Option (Outcome P Unit) :=
  let counters := network.counters
  match network.node? receiver with
  | none => some (.error (.unknownNode receiver), network)
  | some node =>
      if node.info.down then
        some (.ok (), { network with
          counters := { counters with droppedAtDelivery := counters.droppedAtDelivery + 1 } })
      else
        (behaviour.deliver message sender receiver).run.exec run { network with
          nodes := network.nodes.modify receiver fun node =>
            { node with info := node.info.countReceived (P.size message) }
          counters := { counters with messagesDelivered := counters.messagesDelivered + 1 } }

def nextInstant (kind : Recurrence) (time : Nat) : Except Error (Option Nat) :=
  match kind.period? with
  | none => .ok none
  | some period =>
      match timeAfter time period with
      | .error error => .error error
      | .ok next => .ok (some next)

def rearm (network : Network P) (record : ScheduledTask P) (next : Option Nat) : Network P :=
  match next with
  | none => network
  | some time => network.pushTask time record

/-- Executes one instant of a task. A next instant past the end of time is an error before the
body runs; the task is queued again after its body. -/
def fireTask (behaviour : Behaviour P) (run : Runner P) (network : Network P)
    (time : Nat) (record : ScheduledTask P) : Option (Outcome P Unit) :=
  let counters := network.counters
  match network.node? record.owner with
  | none => some (.error (.unknownNode record.owner), network)
  | some node =>
      if record.kind.isConditional &&
          ! behaviour.keepRunning record.task network record.owner then
        some (.ok (), network)
      else
        match nextInstant record.kind time with
        | .error error => some (.error error, network)
        | .ok next =>
            if ! node.info.down && (! record.kind.isConditional ||
                behaviour.stillEnabled record.task network record.owner) then
              match (behaviour.fire record.task record.owner).run.exec run { network with
                  counters := { counters with tasksFired := counters.tasksFired + 1 } } with
              | none => none
              | some (.error error, network) => some (.error error, network)
              | some (.ok (), network) => some (.ok (), network.rearm record next)
            else
              some (.ok (), { network with
                counters := { counters with tasksSkipped := counters.tasksSkipped + 1 } }.rearm
                  record next)

def dispatch (behaviour : Behaviour P) (run : Runner P) (network : Network P)
    (time : Nat) : Event P → Option (Outcome P Unit)
  | .delivery sender receiver message =>
      network.deliver behaviour run sender receiver message
  | .task record => network.fireTask behaviour run time record

/-- Executes an event that was taken off the queue. A failure is wrapped with the
place where it arose and halts the network. -/
def execute (behaviour : Behaviour P) (run : Runner P) (network : Network P)
    (key : EventKey) (event : Event P) : Option (Outcome P Unit) :=
  match { network with time := key.time }.dispatch behaviour run key.time event with
  | none => none
  | some (.ok (), network) => some (.ok (), network)
  | some (.error source, network) =>
      some (.error (.aborted key.time event.node key.sequence source),
        { network with halted := true })

def start (network : Network P) (deadline : Nat) : Except Error (Network P) :=
  if network.halted then
    .error .halted
  else if deadline < network.time then
    .error (.scheduleInPast network.time deadline)
  else if network.started then
    .ok network
  else
    match network.config.validate with
    | .error error => .error error
    | .ok () => .ok { network with started := true }

def startThen (drain : Runner P) : Runner P := fun deadline network =>
  match network.start deadline with
  | .error error => some (.error error, network)
  | .ok network => drain deadline network

/-- Executes every due event, those that come in meanwhile included, and then
sets the clock to the deadline. -/
def drain (behaviour : Behaviour P) : (fuel : Nat) → Runner P
  | 0, _, _ => none
  | fuel + 1, deadline, network =>
      match network.queue.popDue deadline with
      | none => some (.ok (), { network with time := deadline })
      | some ((key, event), queue) =>
          match { network with queue := queue }.execute behaviour
              (startThen (drain behaviour fuel)) key event with
          | none => none
          | some (.error error, network) => some (.error error, network)
          | some (.ok (), network) => drain behaviour fuel deadline network

/-- Runs a network up to a deadline, with at most `fuel` events. -/
def runUntil (behaviour : Behaviour P) (fuel : Nat) : Runner P :=
  startThen (drain behaviour fuel)

end Network

end Simnet
