import Simnet.Network.Basic

namespace Simnet

/-! Sending. A send first decides the fate of every receiver, with a copy of the
generator, and is carried out only when no decision fails; so a failed send
changes nothing. -/

inductive Fate
  | down
  | partitioned
  | discarded
  | deliver (arrival : Nat)
deriving DecidableEq, Repr

namespace Network

variable {P : Protocol}

def isPartitioned (network : Network P) (first second : Nat) : Bool :=
  match network.partition with
  | none => false
  | some state => state.separates first second

/-- Only a message between live nodes that are not separated draws a delay. -/
def fate (network : Network P) (origin sender receiver : Nat) (rng : Rng) :
    Except Error (Fate × Rng) :=
  match network.node sender with
  | .error error => .error error
  | .ok source =>
      match network.node receiver with
      | .error error => .error error
      | .ok target =>
          if source.info.down || target.info.down then
            .ok (.down, rng)
          else if network.isPartitioned sender receiver then
            .ok (.partitioned, rng)
          else
            let (delay, rng) := network.latency.delay source.info target.info rng
            if network.config.discards delay then
              .ok (.discarded, rng)
            else
              match timeAfter origin delay with
              | .error error => .error error
              | .ok arrival => .ok (.deliver arrival, rng)

def fates (network : Network P) (origin sender : Nat) : List Nat → Rng →
    Except Error (List (Nat × Fate) × Rng)
  | [], rng => .ok ([], rng)
  | receiver :: rest, rng =>
      match network.fate origin sender receiver rng with
      | .error error => .error error
      | .ok (fate, rng) =>
          match network.fates origin sender rest rng with
          | .error error => .error error
          | .ok (fates, rng) => .ok ((receiver, fate) :: fates, rng)

def checkSend (network : Network P) (origin sender : Nat) (receivers : List Nat) :
    Except Error Unit :=
  if origin < network.time then
    .error (.scheduleInPast network.time origin)
  else
    match (sender :: receivers).find? fun id => (network.node? id).isNone with
    | some id => .error (.unknownNode id)
    | none => .ok ()

def commitFate (message : P.Message) (sender : Nat) (network : Network P)
    (decision : Nat × Fate) : Network P :=
  let counters := network.counters
  match decision.2 with
  | .down =>
      { network with counters := { counters with droppedDown := counters.droppedDown + 1 } }
  | .partitioned =>
      { network with
        counters := { counters with droppedPartition := counters.droppedPartition + 1 } }
  | .discarded =>
      { network with
        counters := { counters with droppedDiscarded := counters.droppedDiscarded + 1 } }
  | .deliver arrival =>
      { network with
        nodes := network.nodes.modify sender fun node =>
          { node with info := node.info.countSent (P.size message) }
        counters := { counters with messagesSent := counters.messagesSent + 1 }
        queue := network.queue.push arrival (.delivery sender decision.1 message) }

def sendToMany (network : Network P) (message : P.Message) (origin sender : Nat)
    (receivers : List Nat) : Outcome P Unit :=
  match network.checkSend origin sender receivers with
  | .error error => (.error error, network)
  | .ok () =>
      match network.fates origin sender receivers network.rng with
      | .error error => (.error error, network)
      | .ok (fates, rng) =>
          (.ok (), fates.foldl (commitFate message sender) { network with rng := rng })

def send (network : Network P) (message : P.Message) (origin sender receiver : Nat) :
    Outcome P Unit :=
  network.sendToMany message origin sender [receiver]

def sendAll (network : Network P) (message : P.Message) (origin sender : Nat) :
    Outcome P Unit :=
  network.sendToMany message origin sender
    (network.liveNodeIds.filter fun id => id ≠ sender)

end Network

end Simnet
