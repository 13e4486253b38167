import Simnet.Network.Blocks
import Simnet.Network.Flood
import Simnet.Network.Partition

namespace Simnet

/-! Programs over the public operations of a network. The body of a message or a
task is such a program, and so is every sequence of operations from outside; it
can change a network only through these operations. -/

inductive Op (P : Protocol)
  | read
  | setRng (rng : Rng)
  | createNode (placement : Placement) (byzantine : Bool)
  | addNode (info : NodeInfo) (state : P.State)
  | setState (node : Nat) (state : P.State)
  | setLocation (node : Nat) (location : Location)
  | setInfo (node : Nat) (info : NodeInfo)
  | setDown (node : Nat) (down : Bool)
  | markDone (node : Nat)
  | sendToMany (message : P.Message) (origin sender : Nat) (receivers : List Nat)
  | sendAll (message : P.Message) (origin sender : Nat)
  | schedule (task : P.Task) (start owner : Nat) (kind : Recurrence)
  | partition (groups : List (List Nat))
  | partitionByPosition (fraction : Float)
  | endPartition
  | setPeers (config : OverlayConfig)
  | createLink (first second : Nat)
  | removeLink (first second : Nat)
  | disconnect (node : Nat)
  | flood (message : P.Message) (header : FloodHeader) (origin : Nat)
  | receiveFlood (message : P.Message) (header : FloodHeader) (sender receiver : Nat)
  | createBlock (proposal : BlockProposal P.Payload)
  | offerBlock (node block : Nat)
  | runUntil (deadline : Nat)
  | runFor (milliseconds : Nat)
  | runSeconds (seconds : Nat)

namespace Op

variable {P : Protocol}

@[reducible] def Answer : Op P → Type
  | read => Network P
  | setRng _ => Unit
  | createNode _ _ => NodeInfo
  | addNode _ _ => Except Error Nat
  | schedule _ _ _ _ => Except Error Nat
  | endPartition => Unit
  | createLink _ _ => Except Error Bool
  | removeLink _ _ => Except Error Bool
  | receiveFlood _ _ _ _ => Except Error Bool
  | createBlock _ => Except Error Nat
  | offerBlock _ _ => Except Error Bool
  | _ => Except Error Unit

def isRun : Op P → Bool
  | runUntil _ | runFor _ | runSeconds _ => true
  | _ => false

end Op

inductive Program (P : Protocol) (α : Type) : Type
  | pure (value : α)
  | call (op : Op P) (next : op.Answer → Program P α)

namespace Program

variable {P : Protocol} {α β : Type}

def bind : Program P α → (α → Program P β) → Program P β
  | pure value, next => next value
  | call op rest, next => call op fun answer => (rest answer).bind next

instance : Monad (Program P) where
  pure := Program.pure
  bind := Program.bind

def perform (op : Op P) : Program P op.Answer :=
  call op pure

/-- Every operation that the program can come to satisfies `good`. -/
def All (good : Op P → Prop) : Program P α → Prop
  | pure _ => True
  | call op next => good op ∧ ∀ answer, (next answer).All good

end Program

abbrev Body (P : Protocol) (α : Type) := ExceptT Error (Program P) α

namespace Body

variable {P : Protocol} {α : Type}

def read : Body P (Network P) :=
  ExceptT.lift (.perform .read)

def ofResult (result : Except Error α) : Body P α :=
  ExceptT.mk (.pure result)

def draw (sample : Rng → α × Rng) : Body P α := do
  let network ← read
  let (value, rng) := sample network.rng
  ExceptT.lift (.perform (.setRng rng))
  return value

end Body

/-- What the messages and tasks of a protocol do. -/
structure Behaviour (P : Protocol) where
  deliver : P.Message → (sender receiver : Nat) → Body P Unit
  fire : P.Task → (owner : Nat) → Body P Unit
  /-- Whether the body of a conditional task runs at this instant. -/
  stillEnabled : P.Task → Network P → (owner : Nat) → Bool := fun _ _ _ => true
  /-- Whether a conditional task comes back at all. -/
  keepRunning : P.Task → Network P → (owner : Nat) → Bool := fun _ _ _ => true

end Simnet
