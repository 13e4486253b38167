import Simnet.Json.Decode
import Simnet.Latency
import Simnet.Snapshot

namespace Simnet

/-! Stored forms of nodes, their places and their snapshots. -/

namespace CloudRegion

def toJson (region : CloudRegion) : Json :=
  .string region.tag

def ofJson? : Json → Option CloudRegion :=
  Json.unitVariant? ofTag?

end CloudRegion

namespace City

def toJson (city : City) : Json :=
  .string city.tag

def ofJson? : Json → Option City :=
  Json.unitVariant? ofTag?

end City

namespace Region

def toJson : Region → Json
  | cloud place => .object [("Aws", place.toJson)]
  | city place => .object [("City", place.toJson)]

def ofJson? (json : Json) : Option Region := do
  match ← json.variant? with
  | ("Aws", some data) => (CloudRegion.ofJson? data).map cloud
  | ("City", some data) => (City.ofJson? data).map city
  | _ => none

end Region

namespace Location

def toJson (location : Location) : Json :=
  .object [
    ("x", .ofNat location.x),
    ("y", .ofNat location.y),
    ("region", .ofOption Region.toJson location.region)]

def ofJson? (json : Json) : Option Location := do
  let record ← json.record? ["x", "y", "region"]
  some {
    x := ← record.required "x" Json.halfWord?
    y := ← record.required "y" Json.halfWord?
    region := ← record.optional "region" Region.ofJson? }

end Location

namespace NodeInfo

def toJson (info : NodeInfo) : Json :=
  .object [
    ("id", .ofNat info.id),
    ("location", info.location.toJson),
    ("down", .bool info.down),
    ("byzantine", .bool info.byzantine),
    ("done_at", .ofNat info.doneAt),
    ("msg_sent", .ofNat info.messagesSent),
    ("msg_received", .ofNat info.messagesReceived),
    ("bytes_sent", .ofNat info.bytesSent),
    ("bytes_received", .ofNat info.bytesReceived)]

def ofJson? (json : Json) : Option NodeInfo := do
  let record ← json.record?
    ["id", "location", "down", "byzantine", "done_at", "msg_sent", "msg_received",
      "bytes_sent", "bytes_received"]
  some {
    id := ← record.required "id" Json.halfWord?
    location := ← record.required "location" Location.ofJson?
    down := ← record.required "down" Json.bool?
    byzantine := ← record.required "byzantine" Json.bool?
    doneAt := ← record.required "done_at" Json.word?
    messagesSent := ← record.required "msg_sent" Json.word?
    messagesReceived := ← record.required "msg_received" Json.word?
    bytesSent := ← record.required "bytes_sent" Json.word?
    bytesReceived := ← record.required "bytes_received" Json.word? }

end NodeInfo

namespace NodeSnapshot

def toJson (node : NodeSnapshot) : Json :=
  .object [
    ("id", .ofNat node.id),
    ("down", .bool node.down),
    ("done_at", .ofNat node.doneAt),
    ("msg_sent", .ofNat node.messagesSent),
    ("msg_received", .ofNat node.messagesReceived),
    ("bytes_sent", .ofNat node.bytesSent),
    ("bytes_received", .ofNat node.bytesReceived),
    ("state", .ofNat node.state)]

def ofJson? (json : Json) : Option NodeSnapshot := do
  let record ← json.record?
    ["id", "down", "done_at", "msg_sent", "msg_received", "bytes_sent",
      "bytes_received", "state"]
  some {
    id := ← record.required "id" Json.halfWord?
    down := ← record.required "down" Json.bool?
    doneAt := ← record.required "done_at" Json.word?
    messagesSent := ← record.required "msg_sent" Json.word?
    messagesReceived := ← record.required "msg_received" Json.word?
    bytesSent := ← record.required "bytes_sent" Json.word?
    bytesReceived := ← record.required "bytes_received" Json.word?
    state := ← record.required "state" Json.word? }

end NodeSnapshot

namespace Counters

def toJson (counters : Counters) : Json :=
  .object [
    ("messages_sent", .ofNat counters.messagesSent),
    ("messages_delivered", .ofNat counters.messagesDelivered),
    ("dropped_down", .ofNat counters.droppedDown),
    ("dropped_partition", .ofNat counters.droppedPartition),
    ("dropped_discarded", .ofNat counters.droppedDiscarded),
    ("dropped_at_delivery", .ofNat counters.droppedAtDelivery),
    ("tasks_fired", .ofNat counters.tasksFired),
    ("tasks_skipped", .ofNat counters.tasksSkipped)]

def ofJson? (json : Json) : Option Counters := do
  let record ← json.record?
    ["messages_sent", "messages_delivered", "dropped_down", "dropped_partition",
      "dropped_discarded", "dropped_at_delivery", "tasks_fired", "tasks_skipped"]
  some {
    messagesSent := ← record.required "messages_sent" Json.word?
    messagesDelivered := ← record.required "messages_delivered" Json.word?
    droppedDown := ← record.required "dropped_down" Json.word?
    droppedPartition := ← record.required "dropped_partition" Json.word?
    droppedDiscarded := ← record.required "dropped_discarded" Json.word?
    droppedAtDelivery := ← record.required "dropped_at_delivery" Json.word?
    tasksFired := ← record.required "tasks_fired" Json.word?
    tasksSkipped := ← record.required "tasks_skipped" Json.word? }

end Counters

namespace Snapshot

def toJson (snapshot : Snapshot) : Json :=
  .object [
    ("time", .ofNat snapshot.time),
    ("stats", snapshot.counters.toJson),
    ("nodes", .ofList NodeSnapshot.toJson snapshot.nodes)]

def ofJson? (json : Json) : Option Snapshot := do
  let record ← json.record? ["time", "stats", "nodes"]
  some {
    time := ← record.required "time" Json.word?
    counters := ← record.required "stats" Counters.ofJson?
    nodes := ← record.required "nodes" (Json.list? NodeSnapshot.ofJson?) }

end Snapshot

namespace DelaySummary

def toJson (estimate : DelaySummary) : Json :=
  .object [
    ("samples", .ofNat estimate.samples),
    ("min", .ofNat estimate.min),
    ("avg", .float estimate.average),
    ("max", .ofNat estimate.max)]

def ofJson? (json : Json) : Option DelaySummary := do
  let record ← json.record? ["samples", "min", "avg", "max"]
  some {
    samples := ← record.required "samples" Json.word?
    min := ← record.required "min" Json.word?
    average := ← record.required "avg" Json.float?
    max := ← record.required "max" Json.word? }

end DelaySummary

end Simnet
