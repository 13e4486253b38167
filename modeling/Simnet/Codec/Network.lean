import Simnet.Json.Decode
import Simnet.Partition
import Simnet.Protocol

namespace Simnet

/-! Stored forms of partitions, tasks and blocks. -/

namespace Partition

def toJson (state : Partition) : Json :=
  .object [
    ("groups", .ofList .ofNats state.groups),
    ("group_of", .ofNats state.groupOf)]

def ofJson? (json : Json) : Option Partition := do
  let record ← json.record? ["groups", "group_of"]
  some {
    groups := ← record.required "groups" (Json.list? (Json.list? Json.halfWord?))
    groupOf := ← record.required "group_of" (Json.list? Json.word?) }

end Partition

namespace Recurrence

def periodJson (period : Nat) : Json :=
  .object [("period", .ofNat period)]

def toJson : Recurrence → Json
  | oneShot => .string "OneShot"
  | periodic period => .object [("Periodic", periodJson period)]
  | conditional period => .object [("Conditional", periodJson period)]

def periodOfJson? (json : Json) : Option Nat := do
  let record ← json.record? ["period"]
  record.required "period" Json.word?

def ofJson? (json : Json) : Option Recurrence := do
  match ← json.variant? with
  | ("OneShot", data) => (Json.noData data).map fun _ => oneShot
  | ("Periodic", some data) => (periodOfJson? data).map periodic
  | ("Conditional", some data) => (periodOfJson? data).map conditional
  | _ => none

end Recurrence

namespace Block

variable {β : Type}

def toJson (encode : β → Json) (block : Block β) : Json :=
  .object [
    ("id", .ofNat block.id),
    ("producer", .ofOption .ofNat block.producer),
    ("height", .ofNat block.height),
    ("parent", .ofOption .ofNat block.parent),
    ("valid", .bool block.valid),
    ("proposal_time", .ofNat block.proposalTime),
    ("payload", encode block.payload)]

def ofJson? (decode : Json → Option β) (json : Json) : Option (Block β) := do
  let record ← json.record?
    ["id", "producer", "height", "parent", "valid", "proposal_time", "payload"]
  some {
    id := ← record.required "id" Json.word?
    producer := ← record.optional "producer" Json.halfWord?
    height := ← record.required "height" Json.word?
    parent := ← record.optional "parent" Json.word?
    valid := ← record.required "valid" Json.bool?
    proposalTime := ← record.required "proposal_time" Json.word?
    payload := ← record.required "payload" decode }

end Block

namespace BlockRetry

def toJson (retry : BlockRetry) : Json :=
  .object [("block", .ofNat retry.block)]

def ofJson? (json : Json) : Option BlockRetry := do
  let record ← json.record? ["block"]
  some { block := ← record.required "block" Json.word? }

end BlockRetry

end Simnet
