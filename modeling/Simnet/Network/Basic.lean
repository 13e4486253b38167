import Simnet.Network.Config
import Simnet.Latency
import Simnet.Overlay
import Simnet.Partition
import Simnet.Placement
import Simnet.Protocol
import Simnet.Queue
import Simnet.Counters

namespace Simnet

/-! The state of a simulation and its node registry. Every operation that can
fail returns the network that it leaves behind together with its outcome, so an
operation may be stopped half way by an error, and whether it is can be stated. -/

structure Network (P : Protocol) where
  config : NetworkConfig
  latency : Latency
  time : Nat := 0
  started : Bool := false
  /-- Set when an event fails; a halted network does not run again. -/
  halted : Bool := false
  rng : Rng
  nodes : List (Node P) := []
  queue : EventQueue (Event P) := .empty
  partition : Option Partition := none
  nextTask : Nat := 0
  counters : Counters := {}
  overlay : Overlay := .empty
  tree : BlockTree P.Payload

abbrev Outcome (P : Protocol) (α : Type) := Except Error α × Network P

namespace Network

variable {P : Protocol}

def new (config : NetworkConfig) (latency : Latency) (genesisPayload : P.Payload) :
    Network P where
  config := config
  latency := latency
  rng := .ofSeed (UInt64.ofNat config.seed)
  tree := .new genesisPayload

def node? (network : Network P) (id : Nat) : Option (Node P) :=
  network.nodes[id]?

def node (network : Network P) (id : Nat) : Except Error (Node P) :=
  match network.node? id with
  | some node => .ok node
  | none => .error (.unknownNode id)

def nodeCount (network : Network P) : Nat :=
  network.nodes.length

def nodeInfos (network : Network P) : List NodeInfo :=
  network.nodes.map (·.info)

def liveNodes (network : Network P) : List (Node P) :=
  network.nodes.filter fun node => ! node.info.down

def liveNodeIds (network : Network P) : List Nat :=
  network.liveNodes.map (·.info.id)

def pendingEvents (network : Network P) : Nat :=
  network.queue.length

def createNode (network : Network P) (placement : Placement) (byzantine : Bool) :
    NodeInfo × Network P :=
  let (location, rng) := placement network.rng
  (.new location byzantine, { network with rng := rng })

def maxNodes : Nat := 0x100000000

/-- Adds a node under the next id. Nodes are added before the start, and not
while a partition is active. -/
def addNode (network : Network P) (info : NodeInfo) (state : P.State) :
    Outcome P Nat :=
  let id := network.nodeCount
  if network.started then
    (.error (.topologyFrozen .running), network)
  else if network.partition.isSome then
    (.error (.topologyFrozen .partitioned), network)
  else if maxNodes ≤ id then
    (.error (.invalidParameter .tooManyNodes), network)
  else
    (.ok id, { network with
      nodes := network.nodes ++ [⟨{ info with id := id }, state⟩]
      overlay := network.overlay.addNode
      tree := network.tree.addNode })

def modifyNode (network : Network P) (id : Nat) (change : Node P → Node P) :
    Network P :=
  { network with nodes := network.nodes.modify id change }

def updateNode (network : Network P) (id : Nat) (change : Node P → Node P) :
    Outcome P Unit :=
  match network.node? id with
  | none => (.error (.unknownNode id), network)
  | some _ => (.ok (), network.modifyNode id change)

def setState (network : Network P) (id : Nat) (state : P.State) : Outcome P Unit :=
  network.updateNode id fun node => { node with state := state }

def setLocation (network : Network P) (id : Nat) (location : Location) :
    Outcome P Unit :=
  network.updateNode id fun node =>
    { node with info := { node.info with location := location } }

/-- Overwrites all that is kept of a node, its id and counters included. -/
def setInfo (network : Network P) (id : Nat) (info : NodeInfo) : Outcome P Unit :=
  network.updateNode id fun node => { node with info := info }

def setDown (network : Network P) (id : Nat) (down : Bool) : Outcome P Unit :=
  network.updateNode id fun node => { node with info := { node.info with down := down } }

def markDone (network : Network P) (id : Nat) : Outcome P Unit :=
  network.updateNode id fun node =>
    { node with info := node.info.markDone network.time }

def estimateLatency (network : Network P) (samples : Nat) (scratch : Rng) :
    Option DelaySummary × Rng :=
  network.latency.estimate network.nodeInfos samples scratch

end Network

end Simnet
