import Simnet.Program

namespace Simnet.Script

/-! A protocol whose messages and tasks carry their behaviour as data. Every node
keeps a log, a message or a task is a list of actions, and a block carries a
number. Scripts are how a simulation is described from outside. -/

inductive Target
  | node (id : Nat)
  | self
  | sender
  | random
deriving DecidableEq, Repr

structure Letter (α : Type) where
  size : Nat := 1
  ttl : Nat := 0
  body : List α := []
  flood : Option FloodHeader := none

structure Chore (α : Type) where
  body : List α := []
  enabledFrom : Nat := 0
  enabledUntil : Nat := maxTime
  stopAfter : Nat := maxTime
  maxLog : Nat := maxTime
  untilDone : Bool := false

inductive Action
  | log (text : String)
  | send (target : Target) (message : Letter Action) (delay : Nat)
  | sendToMany (targets : List Target) (message : Letter Action) (delay : Nat)
  | sendAll (message : Letter Action) (delay : Nat)
  | forward (target : Target) (delay : Nat)
  | sendInPast
  | done
  | setDown (target : Target) (down : Bool)
  | need (node : Nat)
  | schedule (task : Chore Action) (kind : Recurrence) (delay : Nat)
  | partition (groups : List (List Nat))
  | heal
  | runFor (milliseconds : Nat)
  | addNode (placement : PlacementRule) (byzantine : Bool)
  /-- Performs actions and logs their first error instead of failing. -/
  | attempt (body : List Action)
  | receiveFlood
  | startFlood (message : Letter Action)
  | link (node : Nat)
  | unlink (node : Nat)
  | disconnect (node : Nat)
  | offerBlock (block : Nat)
  /-- Builds a block on the own head and announces it to all. -/
  | produce (increment payload : Nat) (valid : Bool) (delay : Nat)

abbrev Message := Letter Action

abbrev Task := Chore Action

abbrev Log := List (Nat × String)

namespace Log

def rotateLeft (word : UInt64) (amount : UInt64) : UInt64 :=
  (word <<< amount) ||| (word >>> (64 - amount))

/-- Folds the times of the entries into the number of entries. -/
def digest (log : Log) : UInt64 :=
  log.foldl (fun value entry => rotateLeft value 7 ^^^ UInt64.ofNat entry.1)
    (UInt64.ofNat log.length)

end Log

inductive ForkRule
  | higher
  | longest
  | heaviest
deriving DecidableEq, Repr

namespace ForkRule

def choice : ForkRule → ForkChoice Nat
  | higher => BlockTree.higher
  | longest => BlockTree.longest
  | heaviest => BlockTree.heaviest id

end ForkRule

end Simnet.Script

namespace Simnet

open Script in
abbrev scripted (rule : Script.ForkRule) : Protocol where
  State := Log
  Message := Message
  Task := Task
  Payload := Nat
  digest := fun _ log => log.digest
  size := fun message => message.size
  retry := fun retry => { body := [.offerBlock retry.block] }
  forkChoice := rule.choice

end Simnet
