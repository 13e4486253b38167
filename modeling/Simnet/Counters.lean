namespace Simnet

/-! Counters of a whole network. -/

structure Counters where
  messagesSent : Nat := 0
  messagesDelivered : Nat := 0
  droppedDown : Nat := 0
  droppedPartition : Nat := 0
  droppedDiscarded : Nat := 0
  droppedAtDelivery : Nat := 0
  tasksFired : Nat := 0
  /-- Instants of a task at which its body did not run. -/
  tasksSkipped : Nat := 0
deriving DecidableEq, Repr

namespace Counters

def droppedAtSend (counters : Counters) : Nat :=
  counters.droppedDown + counters.droppedPartition + counters.droppedDiscarded

def dropped (counters : Counters) : Nat :=
  counters.droppedAtSend + counters.droppedAtDelivery

def attempts (counters : Counters) : Nat :=
  counters.messagesSent + counters.droppedAtSend

end Counters

end Simnet
