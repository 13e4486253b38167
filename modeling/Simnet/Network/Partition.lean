import Simnet.Network.Send

namespace Simnet

/-! Installing and ending partitions. -/

namespace Network

variable {P : Protocol}

/-- Replaces the active partition; a refused list of groups leaves it as it is. -/
def installPartition (network : Network P) (groups : List (List Nat)) : Outcome P Unit :=
  match Partition.ofGroups groups network.nodeCount with
  | .error error => (.error error, network)
  | .ok state => (.ok (), { network with partition := some state })

def boundary (fraction : Float) : Nat :=
  (Float.ofNat mapWidth * fraction).toUInt32.toNat

/-- The ids of the nodes on one side of a boundary, and of those on the other;
an empty side is left out. -/
def sides (network : Network P) (boundary : Nat) : List (List Nat) :=
  let left := network.nodeInfos.filter fun info => info.location.x < boundary
  let right := network.nodeInfos.filter fun info => ¬ info.location.x < boundary
  ([left, right].map fun side => side.map (·.id)).filter fun side => ! side.isEmpty

def partitionByPosition (network : Network P) (fraction : Float) : Outcome P Unit :=
  if 0 < fraction ∧ fraction < 1 then
    network.installPartition (network.sides (boundary fraction))
  else
    (.error (.invalidParameter (.fractionOutOfRange fraction)), network)

def endPartition (network : Network P) : Network P :=
  { network with partition := none }

end Network

end Simnet
