import Simnet.Error

namespace Simnet

/-! Partitions of the nodes into groups. Messages between different groups are
dropped while a partition is active. -/

structure Partition where
  groups : List (List Nat)
  groupOf : List Nat
deriving DecidableEq, Repr

namespace Partition

def assign (group : Nat) (slots : List (Option Nat)) (node : Nat) :
    Except Error (List (Option Nat)) :=
  match slots[node]? with
  | none => .error (.unknownNode node)
  | some (some earlier) => .error (.invalidPartition (.overlap node earlier group))
  | some none => .ok (slots.set node (some group))

def assignGroup (group : Nat) : List (Option Nat) → List Nat →
    Except Error (List (Option Nat))
  | slots, [] => .ok slots
  | slots, node :: rest =>
      match assign group slots node with
      | .error error => .error error
      | .ok slots => assignGroup group slots rest

/-- Goes through the groups in order, the first of them having index `group`. -/
def assignGroups : (group : Nat) → List (Option Nat) → List (List Nat) →
    Except Error (List (Option Nat))
  | _, slots, [] => .ok slots
  | group, slots, members :: rest =>
      match assignGroup group slots members with
      | .error error => .error error
      | .ok slots => assignGroups (group + 1) slots rest

/-- Accepts groups that hold every one of `nodeCount` nodes exactly once. -/
def ofGroups (groups : List (List Nat)) (nodeCount : Nat) :
    Except Error Partition :=
  match assignGroups 0 (List.replicate nodeCount none) groups with
  | .error error => .error error
  | .ok slots =>
      match slots.findIdx? (·.isNone) with
      | some node => .error (.invalidPartition (.uncovered node))
      | none => .ok ⟨groups, slots.filterMap id⟩

def group? (state : Partition) (node : Nat) : Option Nat :=
  state.groupOf[node]?

def separates (state : Partition) (first second : Nat) : Bool :=
  state.group? first ≠ state.group? second

end Partition

end Simnet
