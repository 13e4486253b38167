import Simnet.Codec.Config
import Simnet.Codec.Network
import Simnet.Codec.Node
import Simnet.Script.Behaviour
import Simnet.Script.Draw

namespace Simnet.Script

/-! Sessions: a scripted network that is driven by commands from outside. Each
command is a program over the public operations, and its result is structured
data. A failed command does not end a session. -/

inductive Command
  | addNodes (placement : PlacementRule) (count : Nat) (byzantine : Bool)
  | send (message : Message) (sender receiver : Nat) (departure : Option Nat)
  | sendToMany (message : Message) (sender : Nat) (receivers : List Nat)
      (departure : Option Nat)
  | sendAll (message : Message) (sender : Nat) (departure : Option Nat)
  | schedule (task : Task) (owner : Nat) (start : Option Nat) (kind : Recurrence)
  | partition (groups : List (List Nat))
  | partitionByPosition (fraction : Float)
  | heal
  | partitionState
  | separated (first second : Nat)
  | runSeconds (seconds : Nat)
  | runFor (milliseconds : Nat)
  | runUntil (deadline : Nat)
  | setDown (node : Nat) (down : Bool)
  | markDone (node : Nat)
  | move (node : Nat) (location : Location)
  | readNode (node : Nat)
  | distance (first second : Nat)
  | liveNodes
  | counts
  | counters
  | snapshot
  | estimate (samples seed : Nat)
  | sample (draw : Draw)
  | info
  | setPeers (config : OverlayConfig)
  | link (first second : Nat)
  | unlink (first second : Nat)
  | disconnect (node : Nat)
  | peers (node : Nat)
  | areLinked (first second : Nat)
  | seen (messageId : Nat) (nodes : List Nat)
  | topology
  | flood (message : Message) (header : FloodHeader) (origin : Nat)
  | receiveFlood (message : Message) (header : FloodHeader) (sender receiver : Nat)
  | estimateOverlay (samples seed : Nat)
  | createBlock (proposal : BlockProposal Nat)
  | offerBlock (node block : Nat)
  | head (node : Nat)
  | headId (node : Nat)
  | heads
  | view (node : Nat) (ids heights : List Nat)
  | readBlock (id : Nat)
  | children (id : Nat)
  | tree (heights : List Nat)
  | isAncestor (ancestor descendant : Nat)
  | hasDirectLink (first second : Nat)
  | ancestry (id : Nat)
  | higher (first second : Nat)

variable {rule : ForkRule}

def blockJson (block : Block Nat) : Json :=
  block.toJson .ofNat

def counterFields (counters : Counters) : Json :=
  match counters.toJson with
  | .object fields =>
      .object (fields ++ [
        ("dropped", .ofNat counters.dropped),
        ("dropped_at_send", .ofNat counters.droppedAtSend)])
  | json => json

/-- An estimate, and the next number of the generator that was used for it. -/
def estimateJson (result : Option DelaySummary × Rng) : Json :=
  .array [.ofOption DelaySummary.toJson result.1, .ofNat (result.2.raw .double).1]

def topologyJson (network : Network (scripted rule)) : Json :=
  let overlay := network.overlay
  .object [
    ("links", .ofNat overlay.linkCount),
    ("avg", .float overlay.averageDegree),
    ("min", .ofNat overlay.minDegree),
    ("peers", .ofList (fun node => .ofOption .ofNats (overlay.peers? node))
      (List.range (network.nodeCount + 1)))]

def idsAtHeight (tree : BlockTree Nat) (height : Nat) : Json :=
  .ofNats ((tree.blocksAtHeight height).map (·.id))

def viewJson (tree : BlockTree Nat) (ids heights : List Nat) : Json :=
  .object [
    ("by_id", .ofList (fun id => .ofOption blockJson (tree.acceptedBlock? id)) ids),
    ("by_height", .ofList (idsAtHeight tree) heights),
    ("max", .ofNat tree.maxHeight)]

/-- The blocks that a node has received, tried one past the last. -/
def receivedJson (tree : BlockTree Nat) (node : Nat) : Json :=
  .array [
    .ofNat (tree.receivedCount node),
    .ofNats ((List.range (tree.length + 1)).filter (tree.hasReceived node))]

def treeJson (network : Network (scripted rule)) (heights : List Nat) : Json :=
  let tree := network.tree
  .object [
    ("len", .ofNat tree.length),
    ("empty", .bool tree.isEmpty),
    ("max", .ofNat tree.maxHeight),
    ("genesis", .ofOption blockJson tree.genesis?),
    ("heights", .ofList (idsAtHeight tree) heights),
    ("received", .ofList (receivedJson tree) (List.range (network.nodeCount + 1)))]

namespace Command

def timeOr (time : Option Nat) : ScriptBody rule Nat := do
  match time with
  | some time => return time
  | none => return (← Body.read).time

def silently (body : ScriptBody rule Unit) : ScriptBody rule Json := do
  body
  return .null

def observe (answer : Network (scripted rule) → Json) : ScriptBody rule Json := do
  return answer (← Body.read)

def inspect {α : Type} (answer : Network (scripted rule) → Except Error α)
    (encode : α → Json) : ScriptBody rule Json := do
  return encode (← Body.ofResult (answer (← Body.read)))

def addSeveral (placement : Placement) (byzantine : Bool) : (count : Nat) →
    ScriptBody rule (List Nat)
  | 0 => return []
  | count + 1 => do
      let info ← ExceptT.lift (.perform (.createNode placement byzantine))
      let id ← ExceptT.mk (.perform (.addNode info []))
      let ids ← addSeveral placement byzantine count
      return id :: ids

def distanceOf (first second : Nat) (network : Network (scripted rule)) :
    Except Error Nat := do
  let left ← network.node first
  let right ← network.node second
  return left.info.distance right.info

def headIds (network : Network (scripted rule)) : Except Error (List Nat) :=
  (List.range network.nodeCount).mapM network.tree.head

def perform : Command → ScriptBody rule Json
  | .addNodes placement count byzantine => do
      return .ofNats (← addSeveral placement.placement byzantine count)
  | .send message sender receiver departure => silently do
      ScriptBody.send message (← timeOr departure) sender [receiver]
  | .sendToMany message sender receivers departure => silently do
      ScriptBody.send message (← timeOr departure) sender receivers
  | .sendAll message sender departure => silently do
      ExceptT.mk (.perform (.sendAll message (← timeOr departure) sender))
  | .schedule task owner start kind => do
      let id ← ExceptT.mk (.perform (.schedule task (← timeOr start) owner kind))
      return .ofNat id
  | .partition groups => silently (ExceptT.mk (.perform (.partition groups)))
  | .partitionByPosition fraction => do
      ExceptT.mk (.perform (.partitionByPosition fraction))
      observe fun network => .ofOption Partition.toJson network.partition
  | .heal => silently (ExceptT.lift (.perform .endPartition))
  | .partitionState => observe fun network =>
      .ofOption Partition.toJson network.partition
  | .separated first second => observe fun network =>
      .bool (network.isPartitioned first second)
  | .runSeconds seconds => silently (ExceptT.mk (.perform (.runSeconds seconds)))
  | .runFor milliseconds => silently (ExceptT.mk (.perform (.runFor milliseconds)))
  | .runUntil deadline => silently (ExceptT.mk (.perform (.runUntil deadline)))
  | .setDown node down => silently (ExceptT.mk (.perform (.setDown node down)))
  | .markDone node => silently (ExceptT.mk (.perform (.markDone node)))
  | .move node location => silently (ExceptT.mk (.perform (.setLocation node location)))
  | .readNode id => inspect (·.node id) fun node => node.info.toJson
  | .distance first second => inspect (distanceOf first second) .ofNat
  | .liveNodes => observe fun network => .ofNats network.liveNodeIds
  | .counts => observe fun network =>
      .ofNats [network.nodeCount, network.nodes.length, network.liveNodes.length]
  | .counters => observe fun network => counterFields network.counters
  | .snapshot => observe fun network => network.snapshot.toJson
  | .estimate samples seed => observe fun network =>
      estimateJson (network.estimateLatency samples (.ofSeed (UInt64.ofNat seed)))
  | .sample draw => Body.draw draw.sample
  | .info => observe fun network =>
      .array [network.config.toJson, .string network.latency.name]
  | .setPeers config => silently (ExceptT.mk (.perform (.setPeers config)))
  | .link first second => do
      return .bool (← ExceptT.mk (.perform (.createLink first second)))
  | .unlink first second => do
      return .bool (← ExceptT.mk (.perform (.removeLink first second)))
  | .disconnect node => silently (ExceptT.mk (.perform (.disconnect node)))
  | .peers node => inspect (·.peers node) .ofNats
  | .areLinked first second => observe fun network =>
      .bool (network.overlay.areLinked first second)
  | .seen messageId nodes => observe fun network =>
      .ofList (fun node => .bool (network.overlay.hasSeen messageId node)) nodes
  | .topology => observe topologyJson
  | .flood message header origin =>
      silently (ExceptT.mk (.perform (.flood message header origin)))
  | .receiveFlood message header sender receiver => do
      return .bool (← ExceptT.mk (.perform (.receiveFlood message header sender receiver)))
  | .estimateOverlay samples seed => observe fun network =>
      estimateJson (network.estimateOverlayLatency samples (.ofSeed (UInt64.ofNat seed)))
  | .createBlock proposal => do
      return .ofNat (← ExceptT.mk (.perform (.createBlock proposal)))
  | .offerBlock node block => do
      return .bool (← ExceptT.mk (.perform (.offerBlock node block)))
  | .head node => inspect (·.head node) blockJson
  | .headId node => inspect (·.tree.head node) .ofNat
  | .heads => inspect headIds .ofNats
  | .view node ids heights => inspect (·.byzantineView node) fun view =>
      .ofOption (viewJson · ids heights) view
  | .readBlock id => inspect (·.tree.block id) fun block =>
      .array [blockJson block, .bool block.isGenesis]
  | .children id => inspect (·.tree.children id) .ofNats
  | .tree heights => observe (treeJson · heights)
  | .isAncestor ancestor descendant =>
      inspect (·.tree.isAncestor ancestor descendant) .bool
  | .hasDirectLink first second => inspect (·.tree.hasDirectLink first second) .bool
  | .ancestry id => inspect (·.tree.ancestry id) .ofNats
  | .higher first second => observe fun network =>
      .ofNat (network.tree.higher first second)

end Command

/-- A bound on the events of one run that no session meets. -/
def eventLimit : Nat := 0x4000000000000000

def genesisPayload : Nat := 7

def newNetwork (rule : ForkRule) (config : NetworkConfig) (latency : LatencyModel) :
    Network (scripted rule) :=
  .new config latency.latency genesisPayload

def Command.exec (command : Command) (network : Network (scripted rule)) :
    Option (Outcome (scripted rule) Json) :=
  (command.perform).run.exec (Network.runUntil scriptedBehaviour eventLimit) network

def execAll : List Command → Network (scripted rule) → Option (Outcome (scripted rule) Unit)
  | [], network => some (.ok (), network)
  | command :: rest, network =>
      match command.exec network with
      | none => none
      | some (.error error, network) => some (.error error, network)
      | some (.ok _, network) => execAll rest network

structure SessionState where
  time : Nat
  pendingEvents : Nat
  started : Bool
  peek : Nat
deriving DecidableEq, Repr

def SessionState.of (network : Network (scripted rule)) : SessionState where
  time := network.time
  pendingEvents := network.pendingEvents
  started := network.started
  peek := (network.rng.raw .double).1

structure SessionStep where
  result : Except Error Json
  state : SessionState

/-- Performs all commands, whether they fail or not; none when one of them does
not come to an end. -/
def session : List Command → Network (scripted rule) →
    Option (List SessionStep × Network (scripted rule))
  | [], network => some ([], network)
  | command :: rest, network =>
      match command.exec network with
      | none => none
      | some (result, network) =>
          match session rest network with
          | none => none
          | some (steps, final) => some (⟨result, .of network⟩ :: steps, final)

def logsJson (network : Network (scripted rule)) : Json :=
  .ofList (fun node =>
    .ofList (fun entry => .array [.ofNat entry.1, .string entry.2]) node.state) network.nodes

end Simnet.Script
