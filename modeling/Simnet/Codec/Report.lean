import Simnet.Codec.Node
import Simnet.Json.Printer
import Simnet.Json.Reader
import Simnet.LockStep

namespace Simnet

/-! Stored forms of alerts and replay reports, and the text of a report. -/

namespace AlertKind

def tag : AlertKind → String
  | stalled => "Stalled"
  | highDropRate => "HighDropRate"
  | nodesDown => "NodesDown"

def ofTag? (text : String) : Option AlertKind :=
  [stalled, highDropRate, nodesDown].find? fun kind => kind.tag = text

def toJson (kind : AlertKind) : Json :=
  .string kind.tag

def ofJson? : Json → Option AlertKind :=
  Json.unitVariant? ofTag?

end AlertKind

namespace Alert

def toJson (alert : Alert) : Json :=
  .object [
    ("kind", alert.kind.toJson),
    ("step", .ofNat alert.step),
    ("time", .ofNat alert.time),
    ("message", .string alert.message),
    ("metrics", .object (alert.metrics.map fun metric => (metric.1, .float metric.2)))]

/-- Adds the metrics in the order of a text, so that the last of a name stays. -/
def insertMetrics : List (String × Json) → List (String × Float) →
    Option (List (String × Float))
  | [], metrics => some metrics
  | (name, json) :: rest, metrics =>
      match json.float? with
      | none => none
      | some value => insertMetrics rest (insertMetric name value metrics)

def metricsOfJson? : Json → Option (List (String × Float))
  | .object fields => insertMetrics fields []
  | _ => none

def ofJson? (json : Json) : Option Alert := do
  let record ← json.record? ["kind", "step", "time", "message", "metrics"]
  some {
    kind := ← record.required "kind" AlertKind.ofJson?
    step := ← record.required "step" Json.halfWord?
    time := ← record.required "time" Json.word?
    message := ← record.required "message" Json.string?
    metrics := ← record.required "metrics" metricsOfJson? }

end Alert

namespace StepSummary

def toJson (summary : StepSummary) : Json :=
  .object [
    ("step", .ofNat summary.step),
    ("time", .ofNat summary.time),
    ("matched", .bool summary.matched),
    ("done_nodes", .ofNat summary.doneNodes),
    ("messages_delivered", .ofNat summary.messagesDelivered)]

def ofJson? (json : Json) : Option StepSummary := do
  let record ← json.record?
    ["step", "time", "matched", "done_nodes", "messages_delivered"]
  some {
    step := ← record.required "step" Json.halfWord?
    time := ← record.required "time" Json.word?
    matched := ← record.required "matched" Json.bool?
    doneNodes := ← record.required "done_nodes" Json.word?
    messagesDelivered := ← record.required "messages_delivered" Json.word? }

end StepSummary

namespace Divergence

def toJson (divergence : Divergence) : Json :=
  .object [
    ("step", .ofNat divergence.step),
    ("time", .ofNat divergence.time),
    ("node", .ofOption .ofNat divergence.node),
    ("original", .ofOption NodeSnapshot.toJson divergence.primary),
    ("copy", .ofOption NodeSnapshot.toJson divergence.copy)]

def ofJson? (json : Json) : Option Divergence := do
  let record ← json.record? ["step", "time", "node", "original", "copy"]
  some {
    step := ← record.required "step" Json.halfWord?
    time := ← record.required "time" Json.word?
    node := ← record.optional "node" Json.halfWord?
    primary := ← record.optional "original" NodeSnapshot.ofJson?
    copy := ← record.optional "copy" NodeSnapshot.ofJson? }

end Divergence

namespace ReplayReport

def toJson (report : ReplayReport) : Json :=
  .object [
    ("seed", .ofNat report.seed),
    ("step_ms", .ofNat report.stepMs),
    ("steps_run", .ofNat report.stepsRun),
    ("steps", .ofList StepSummary.toJson report.steps),
    ("divergence", .ofOption Divergence.toJson report.divergence),
    ("alerts", .ofList Alert.toJson report.alerts),
    ("final_snapshot", report.finalSnapshot.toJson)]

def ofJson? (json : Json) : Option ReplayReport := do
  let record ← json.record?
    ["seed", "step_ms", "steps_run", "steps", "divergence", "alerts", "final_snapshot"]
  some {
    seed := ← record.required "seed" Json.word?
    stepMs := ← record.required "step_ms" Json.word?
    stepsRun := ← record.required "steps_run" Json.halfWord?
    steps := ← record.required "steps" (Json.list? StepSummary.ofJson?)
    divergence := ← record.optional "divergence" Divergence.ofJson?
    alerts := ← record.required "alerts" (Json.list? Alert.ofJson?)
    finalSnapshot := ← record.required "final_snapshot" Snapshot.ofJson? }

def toText (report : ReplayReport) : String :=
  report.toJson.pretty

def ofText (text : String) : Except ReplayError ReplayReport :=
  match (Json.parse text).bind ofJson? with
  | some report => .ok report
  | none => .error .serialization

end ReplayReport

end Simnet
