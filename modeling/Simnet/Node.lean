import Simnet.Map.Location

namespace Simnet

/-! What the simulator keeps of every node. -/

/-- The id of a node that belongs to no network yet. -/
def unassigned : Nat := 0xFFFFFFFF

structure NodeInfo where
  id : Nat := unassigned
  location : Location
  down : Bool := false
  byzantine : Bool
  /-- The time at which the node first finished, zero before that. -/
  doneAt : Nat := 0
  messagesSent : Nat := 0
  messagesReceived : Nat := 0
  bytesSent : Nat := 0
  bytesReceived : Nat := 0
deriving DecidableEq, Repr

namespace NodeInfo

def new (location : Location) (byzantine : Bool) : NodeInfo where
  location := location
  byzantine := byzantine

def isDone (info : NodeInfo) : Bool :=
  0 < info.doneAt

def distance (first second : NodeInfo) : Nat :=
  first.location.distance second.location

def markDone (info : NodeInfo) (now : Nat) : NodeInfo :=
  if info.doneAt = 0 then { info with doneAt := max 1 now } else info

def countSent (info : NodeInfo) (size : Nat) : NodeInfo :=
  { info with
    messagesSent := info.messagesSent + 1
    bytesSent := info.bytesSent + size }

def countReceived (info : NodeInfo) (size : Nat) : NodeInfo :=
  { info with
    messagesReceived := info.messagesReceived + 1
    bytesReceived := info.bytesReceived + size }

end NodeInfo

end Simnet
