import Simnet.BlockTree
import Simnet.Node

namespace Simnet

/-! What a protocol brings to the simulator: its node states, messages, tasks and
block payloads, and the few functions on them that the network itself calls. -/

inductive Recurrence
  | oneShot
  | periodic (period : Nat)
  /-- Comes back while the task asks to be kept; its body runs while the task is
  enabled. -/
  | conditional (period : Nat)
deriving DecidableEq, Repr

namespace Recurrence

def period? : Recurrence → Option Nat
  | oneShot => none
  | periodic period => some period
  | conditional period => some period

def isConditional : Recurrence → Bool
  | conditional _ => true
  | _ => false

end Recurrence

structure Protocol where
  State : Type
  Message : Type
  Task : Type
  Payload : Type
  digest : NodeInfo → State → UInt64
  size : Message → Nat
  /-- The task that offers a deferred block again. -/
  retry : BlockRetry → Task
  forkChoice : ForkChoice Payload

structure Node (P : Protocol) where
  info : NodeInfo
  state : P.State

/-- A registered task; its number stays the same when it comes back. -/
structure ScheduledTask (P : Protocol) where
  id : Nat
  owner : Nat
  kind : Recurrence
  task : P.Task

inductive Event (P : Protocol)
  | delivery (sender receiver : Nat) (message : P.Message)
  | task (record : ScheduledTask P)

namespace Event

variable {P : Protocol}

def node : Event P → Nat
  | delivery _ receiver _ => receiver
  | task record => record.owner

end Event

end Simnet
