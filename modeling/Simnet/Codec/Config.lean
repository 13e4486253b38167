import Simnet.Network.Config
import Simnet.Json.Decode
import Simnet.LockStep
import Simnet.Overlay

namespace Simnet

/-! Stored forms of the parameters of networks, overlays and replays. -/

namespace EarlyBlockPolicy

def tag : EarlyBlockPolicy → String
  | accept => "Accept"
  | reject => "Reject"
  | defer => "Defer"

def ofTag? (text : String) : Option EarlyBlockPolicy :=
  [accept, reject, defer].find? fun policy => policy.tag = text

def toJson (policy : EarlyBlockPolicy) : Json :=
  .string policy.tag

def ofJson? : Json → Option EarlyBlockPolicy :=
  Json.unitVariant? ofTag?

end EarlyBlockPolicy

namespace NetworkConfig

def toJson (config : NetworkConfig) : Json :=
  .object [
    ("seed", .ofNat config.seed),
    ("discard_after", .ofOption .ofNat config.discardAfter),
    ("early_block_policy", config.earlyBlockPolicy.toJson),
    ("allow_equivocation", .bool config.allowEquivocation)]

def ofJson? (json : Json) : Option NetworkConfig := do
  let record ← json.record?
    ["seed", "discard_after", "early_block_policy", "allow_equivocation"]
  some {
    seed := ← record.required "seed" Json.word?
    discardAfter := ← record.optional "discard_after" Json.word?
    earlyBlockPolicy := ← record.required "early_block_policy" EarlyBlockPolicy.ofJson?
    allowEquivocation := ← record.required "allow_equivocation" Json.bool? }

end NetworkConfig

namespace OverlayConfig

def toJson (config : OverlayConfig) : Json :=
  .object [
    ("connection_count", .ofNat config.connectionCount),
    ("minimum", .bool config.minimum)]

def ofJson? (json : Json) : Option OverlayConfig := do
  let record ← json.record? ["connection_count", "minimum"]
  some {
    connectionCount := ← record.required "connection_count" Json.word?
    minimum := ← record.required "minimum" Json.bool? }

end OverlayConfig

namespace FloodHeader

def toJson (header : FloodHeader) : Json :=
  .object [
    ("msg_id", .ofNat header.messageId),
    ("local_delay", .ofNat header.localDelay),
    ("delay_between_peers", .ofNat header.delayBetweenPeers)]

def ofJson? (json : Json) : Option FloodHeader := do
  let record ← json.record? ["msg_id", "local_delay", "delay_between_peers"]
  some {
    messageId := ← record.required "msg_id" Json.word?
    localDelay := ← record.required "local_delay" Json.word?
    delayBetweenPeers := ← record.required "delay_between_peers" Json.word? }

end FloodHeader

namespace MonitorConfig

def toJson (config : MonitorConfig) : Json :=
  .object [
    ("stall_steps", .ofNat config.stallSteps),
    ("max_drop_rate", .float config.maxDropRate),
    ("min_attempts", .ofNat config.minAttempts)]

def ofJson? (json : Json) : Option MonitorConfig := do
  let record ← json.record? ["stall_steps", "max_drop_rate", "min_attempts"]
  let default : MonitorConfig := {}
  some {
    stallSteps := ← record.defaulted "stall_steps" default.stallSteps Json.halfWord?
    maxDropRate := ← record.defaulted "max_drop_rate" default.maxDropRate Json.float?
    minAttempts := ← record.defaulted "min_attempts" default.minAttempts Json.word? }

end MonitorConfig

namespace ReplayConfig

def toJson (config : ReplayConfig) : Json :=
  .object [
    ("seed", .ofNat config.seed),
    ("step_ms", .ofNat config.stepMs),
    ("steps", .ofNat config.steps),
    ("stop_on_divergence", .bool config.stopOnDivergence),
    ("monitor", config.monitor.toJson)]

def ofJson? (json : Json) : Option ReplayConfig := do
  let record ← json.record? ["seed", "step_ms", "steps", "stop_on_divergence", "monitor"]
  some {
    seed := ← record.required "seed" Json.word?
    stepMs := ← record.required "step_ms" Json.word?
    steps := ← record.required "steps" Json.halfWord?
    stopOnDivergence := ← record.defaulted "stop_on_divergence" true Json.bool?
    monitor := ← record.defaulted "monitor" {} MonitorConfig.ofJson? }

end ReplayConfig

end Simnet
