import Simnet.Decimal.Layout

namespace Simnet

/-! Fatal errors. Dropped messages, nodes that are down and deferred blocks are
data of a run and never errors; an error is a misuse of the simulator or a broken
assumption of a protocol, and inside a run it ends the run. Each error is a
cause, and `Error.message` is the only place where causes are worded.

Times are virtual milliseconds since the start of a run. Nodes and blocks are
numbered from zero in the order in which they are added and created. -/

inductive FrozenReason
  | running
  | partitioned
  | other (text : String)
deriving DecidableEq, Repr

inductive ParameterFault
  | timeOverflow (base delta : Nat)
  | runOverflow (seconds : Nat)
  | staggerOverflow (delay : Nat)
  | zeroPeriod
  | zeroDiscard
  | fractionOutOfRange (fraction : Float)
  | connectionCount (count nodes : Nat)
  | selfLink (node : Nat)
  | tooManyNodes
  | other (text : String)
deriving DecidableEq

inductive PartitionFault
  | overlap (node : Nat) (first second : Nat)
  | uncovered (node : Nat)
  | other (text : String)
deriving DecidableEq, Repr

inductive BlockFault
  | notAbove (height : Nat) (parent : Nat) (parentHeight : Nat)
  | other (text : String)
deriving DecidableEq, Repr

inductive Error
  | unknownNode (node : Nat)
  | unknownBlock (block : Nat)
  | topologyFrozen (reason : FrozenReason)
  | scheduleInPast (now requested : Nat)
  | invalidParameter (fault : ParameterFault)
  | invalidPartition (fault : PartitionFault)
  | invalidBlock (fault : BlockFault)
  | equivocation (producer : Nat) (height : Nat) (existing candidate : Nat)
  | aborted (time : Nat) (node : Nat) (sequence : Nat) (source : Error)
  | halted
deriving DecidableEq

namespace FrozenReason

def message : FrozenReason → String
  | running => "the network is already running"
  | partitioned => "a partition is active"
  | other text => text

end FrozenReason

namespace ParameterFault

def message : ParameterFault → String
  | timeOverflow base delta => s!"virtual time overflow: {base}ms + {delta}ms"
  | runOverflow seconds => s!"run of {seconds}s overflows virtual time"
  | staggerOverflow delay => s!"flood stagger of {delay}ms overflows virtual time"
  | zeroPeriod => "task period must be positive"
  | zeroDiscard => "discard_after must be positive"
  | fractionOutOfRange fraction =>
      "partition fraction must be in (0, 1), got " ++ Decimal.plainText fraction
  | connectionCount count nodes => s!"connection count {count} must be in 1..{nodes}"
  | selfLink node => s!"node {node} cannot link to itself"
  | tooManyNodes => "too many nodes"
  | other text => text

end ParameterFault

namespace PartitionFault

def message : PartitionFault → String
  | overlap node first second => s!"node {node} appears in groups {first} and {second}"
  | uncovered node => s!"node {node} is not covered by any group"
  | other text => text

end PartitionFault

namespace BlockFault

def message : BlockFault → String
  | notAbove height parent parentHeight =>
      s!"height {height} does not exceed parent {parent} at height {parentHeight}"
  | other text => text

end BlockFault

namespace Error

def kind : Error → String
  | unknownNode _ => "UnknownNode"
  | unknownBlock _ => "UnknownBlock"
  | topologyFrozen _ => "TopologyFrozen"
  | scheduleInPast _ _ => "ScheduleInPast"
  | invalidParameter _ => "InvalidParameter"
  | invalidPartition _ => "InvalidPartition"
  | invalidBlock _ => "InvalidBlock"
  | equivocation _ _ _ _ => "Equivocation"
  | aborted _ _ _ _ => "Aborted"
  | halted => "Halted"

def message : Error → String
  | unknownNode node => s!"unknown node id {node}"
  | unknownBlock block => s!"unknown block id {block}"
  | topologyFrozen reason => "cannot add node: " ++ reason.message
  | scheduleInPast now requested =>
      s!"cannot schedule at t={requested}ms, clock is already at t={now}ms"
  | invalidParameter fault => "invalid parameter: " ++ fault.message
  | invalidPartition fault => "invalid partition: " ++ fault.message
  | invalidBlock fault => "invalid block: " ++ fault.message
  | equivocation producer height existing candidate =>
      s!"producer {producer} equivocated at height {height}: " ++
        s!"blocks {existing} and {candidate}"
  | aborted time node sequence source =>
      s!"run aborted at t={time}ms on node {node} (event #{sequence}): " ++ source.message
  | halted => "network halted after a fatal error"

/-- The innermost error, without the place in a run where it arose. -/
def rootCause : Error → Error
  | aborted _ _ _ source => source.rootCause
  | error => error

end Error

end Simnet
