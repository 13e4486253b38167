import Simnet.Network.Basic

namespace Simnet

/-! What can be observed of a network at one instant. Two networks that are built
alike and run alike have equal snapshots. -/

structure NodeSnapshot where
  id : Nat
  down : Bool
  doneAt : Nat
  messagesSent : Nat
  messagesReceived : Nat
  bytesSent : Nat
  bytesReceived : Nat
  state : Nat
deriving DecidableEq, Repr

namespace NodeSnapshot

def ofInfo (info : NodeInfo) (digest : UInt64) : NodeSnapshot where
  id := info.id
  down := info.down
  doneAt := info.doneAt
  messagesSent := info.messagesSent
  messagesReceived := info.messagesReceived
  bytesSent := info.bytesSent
  bytesReceived := info.bytesReceived
  state := digest.toNat

end NodeSnapshot

structure Snapshot where
  time : Nat
  counters : Counters
  nodes : List NodeSnapshot
deriving DecidableEq, Repr

namespace Snapshot

/-- The id of the first node that differs, going through both lists in step; when
one list is longer, the position at which the other ends. -/
def firstDifference (first second : Snapshot) : Option Nat :=
  match (first.nodes.zip second.nodes).find? fun pair => pair.1 ≠ pair.2 with
  | some pair => some pair.1.id
  | none =>
      if first.nodes.length = second.nodes.length then
        none
      else
        some (min first.nodes.length second.nodes.length)

def doneCount (snapshot : Snapshot) : Nat :=
  (snapshot.nodes.filter fun node => 0 < node.doneAt).length

def downCount (snapshot : Snapshot) : Nat :=
  (snapshot.nodes.filter fun node => node.down).length

def pendingCount (snapshot : Snapshot) : Nat :=
  snapshot.nodes.length - snapshot.doneCount

end Snapshot

namespace Node

variable {P : Protocol}

def snapshot (node : Node P) : NodeSnapshot :=
  .ofInfo node.info (P.digest node.info node.state)

end Node

namespace Network

variable {P : Protocol}

def snapshot (network : Network P) : Snapshot where
  time := network.time
  counters := network.counters
  nodes := network.nodes.map Node.snapshot

end Network

end Simnet
