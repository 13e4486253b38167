import Simnet.Network.Send

namespace Simnet

/-! Overlay operations of a network: links, and floods along them. -/

namespace Network

variable {P : Protocol}

def setPeers (network : Network P) (config : OverlayConfig) : Outcome P Unit :=
  match config.validate network.nodeCount with
  | .error error => (.error error, network)
  | .ok () =>
      let (overlay, rng) := network.overlay.build config network.rng
      (.ok (), { network with overlay := overlay, rng := rng })

def checkPair (network : Network P) (first second : Nat) : Except Error Unit :=
  match network.node first with
  | .error error => .error error
  | .ok _ =>
      match network.node second with
      | .error error => .error error
      | .ok _ =>
          if first = second then
            .error (.invalidParameter (.selfLink first))
          else
            .ok ()

def createLink (network : Network P) (first second : Nat) : Outcome P Bool :=
  match network.checkPair first second with
  | .error error => (.error error, network)
  | .ok () =>
      (.ok (! network.overlay.areLinked first second),
        { network with overlay := network.overlay.link first second })

def removeLink (network : Network P) (first second : Nat) : Outcome P Bool :=
  match network.checkPair first second with
  | .error error => (.error error, network)
  | .ok () =>
      (.ok (network.overlay.areLinked first second),
        { network with overlay := network.overlay.unlink first second })

/-- Takes a node down; its links stay. -/
def disconnect (network : Network P) (id : Nat) : Outcome P Unit :=
  network.setDown id true

def peers (network : Network P) (id : Nat) : Except Error (List Nat) :=
  match network.overlay.peers? id with
  | some peers => .ok peers
  | none => .error (.unknownNode id)

/-- The receivers of a forward and the time at which the first copy leaves. -/
structure FloodPlan where
  departure : Nat
  receivers : List Nat

/-- Refuses a forward whose last copy would leave after the end of time. A node
that has seen the flood has nothing to forward. -/
def planFlood (network : Network P) (header : FloodHeader) (node : Nat)
    (sender : Option Nat) : Except Error (Option FloodPlan) :=
  match network.node node with
  | .error error => .error error
  | .ok _ =>
      if network.overlay.hasSeen header.messageId node then
        .ok none
      else
        match network.peers node with
        | .error error => .error error
        | .ok peers =>
            let receivers := peers.filter fun peer => some peer ≠ sender
            match timeAfter network.time header.localDelay with
            | .error error => .error error
            | .ok departure =>
                let stagger := (receivers.length - 1) * header.delayBetweenPeers
                if maxTime < stagger then
                  .error (.invalidParameter (.staggerOverflow header.delayBetweenPeers))
                else
                  match timeAfter departure stagger with
                  | .error error => .error error
                  | .ok _ => .ok (some ⟨departure, receivers⟩)

def sendStaggered (message : P.Message) (sender delay : Nat) :
    (departure : Nat) → List Nat → Network P → Outcome P Unit
  | _, [], network => (.ok (), network)
  | departure, receiver :: rest, network =>
      match network.send message departure sender receiver with
      | (.error error, network) => (.error error, network)
      | (.ok (), network) =>
          sendStaggered message sender delay (departure + delay) rest network

def markSeen (network : Network P) (messageId node : Nat) : Network P :=
  { network with overlay := network.overlay.markSeen messageId node }

/-- Forwards a flood at `node` to all its peers but `sender`; true when it is the first time. The
node is marked before the copies are sent. -/
def forwardFlood (network : Network P) (message : P.Message) (header : FloodHeader)
    (node : Nat) (sender : Option Nat) : Outcome P Bool :=
  match network.planFlood header node sender with
  | .error error => (.error error, network)
  | .ok none => (.ok false, network)
  | .ok (some plan) =>
      let marked := network.markSeen header.messageId node
      let sent :=
        if header.delayBetweenPeers = 0 then
          marked.sendToMany message plan.departure node plan.receivers
        else
          let (order, rng) := marked.rng.shuffle plan.receivers
          sendStaggered message node header.delayBetweenPeers plan.departure order
            { marked with rng := rng }
      match sent with
      | (.error error, network) => (.error error, network)
      | (.ok (), network) => (.ok true, network)

def flood (network : Network P) (message : P.Message) (header : FloodHeader)
    (origin : Nat) : Outcome P Unit :=
  match network.forwardFlood message header origin none with
  | (.error error, network) => (.error error, network)
  | (.ok _, network) => (.ok (), network)

def receiveFlood (network : Network P) (message : P.Message) (header : FloodHeader)
    (sender receiver : Nat) : Outcome P Bool :=
  network.forwardFlood message header receiver (some sender)

/-- One delay along a drawn link: a linked node first, then one of its peers. -/
def sampleLink (network : Network P) (linked : List Nat) (rng : Rng) :
    Option Nat × Rng :=
  match rng.choose linked with
  | (none, rng) => (none, rng)
  | (some first, rng) =>
      let peers := network.overlay.peers first
      let (index, rng) := rng.below .double peers.length
      match network.node? first, (peers[index]?).bind network.node? with
      | some sender, some receiver =>
          let (delay, rng) := network.latency.delay sender.info receiver.info rng
          (some delay, rng)
      | _, _ => (none, rng)

def linkedNodes (network : Network P) : List Nat :=
  (idsBelow network.nodeCount).filter fun node => 0 < network.overlay.degree node

def estimateOverlayLatency (network : Network P) (samples : Nat) (scratch : Rng) :
    Option DelaySummary × Rng :=
  let linked := network.linkedNodes
  if linked.isEmpty then
    (none, scratch)
  else
    let (delays, scratch) := collectSamples (network.sampleLink linked) samples scratch
    (DelaySummary.ofDelays delays, scratch)

end Network

end Simnet
