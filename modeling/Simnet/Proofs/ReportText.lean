import Simnet.Codec.Report
import Simnet.Proofs.JsonText

namespace Simnet

/-! Replay reports come back from their text. Each stored form is decoded to what it was made
from, and holds nothing that its text would lose. -/

namespace Json

/-- A value comes back from its stored form, also when that is written and read. -/
structure Carries {α : Type} (encode : α → Json) (decode : Json → Option α) (value : α) :
    Prop where
  faithful : Faithful (encode value)
  decoded : decode (encode value) = some value

variable {α : Type} {encode : α → Json} {decode : Json → Option α}

theorem carries_natUpTo {limit number : Nat} (range : limit ≤ maxTime) (fits : number ≤ limit) :
    Carries ofNat (natUpTo? limit) number where
  faithful := .integer (by omega) (by omega)
  decoded := by simp [ofNat, natUpTo?, fits]

theorem carries_word {number : Nat} (fits : number ≤ maxTime) : Carries ofNat word? number :=
  carries_natUpTo (Nat.le_refl _) fits

theorem carries_halfWord {number : Nat} (fits : number ≤ maxHalfWord) :
    Carries ofNat halfWord? number :=
  carries_natUpTo (by decide) fits

theorem carries_bool (value : Bool) : Carries bool bool? value :=
  ⟨.bool value, rfl⟩

theorem carries_string (text : String) : Carries string string? text :=
  ⟨.string text, rfl⟩

theorem Carries.ofList {values : List α} (each : ∀ value ∈ values, Carries encode decode value) :
    Carries (ofList encode) (list? decode) values where
  faithful := by
    apply Faithful.array
    intro item mem
    obtain ⟨value, held, rfl⟩ := List.mem_map.mp mem
    exact (each value held).faithful
  decoded := by
    rw [Json.ofList, list?, List.mapM_map]
    induction values with
    | nil => rfl
    | cons value values induction =>
        rw [List.forall_mem_cons] at each
        simp [each.1.decoded, induction each.2]

theorem Carries.ofOption (solid : ∀ value, encode value ≠ null) {value : Option α}
    (held : ∀ inner ∈ value, Carries encode decode inner) :
    Carries (ofOption encode) (option? decode) value := by
  cases value with
  | none => exact ⟨.null, rfl⟩
  | some inner =>
      have carries := held inner rfl
      refine ⟨carries.faithful, ?_⟩
      rw [Json.ofOption, option?, carries.decoded]
      · rfl
      · exact solid inner

theorem record?_object {names : List String} {fields : List (String × Json)}
    (named : fields.map (·.1) = names) (distinct : names.Nodup) :
    (object fields).record? names = some ⟨false, fields⟩ := by
  subst named
  have known : fields.filter (fun field => (fields.map (·.1)).contains field.1) = fields := by
    rw [List.filter_eq_self]
    intro field mem
    exact List.contains_iff_mem.mpr (List.mem_map_of_mem mem)
  simp only [record?, known, if_pos distinct]

namespace Record

variable {positional : Bool} {fields : List (String × Json)} {name key : String} {json : Json}

theorem find?_cons :
    find? ⟨positional, (key, json) :: fields⟩ name =
      if name = key then some json else find? ⟨positional, fields⟩ name := by
  rw [find?, List.lookup_cons]
  by_cases same : name = key
  · rw [if_pos same, same, BEq.rfl]
  · rw [if_neg same, beq_false_of_ne same, find?]

theorem required_cons :
    required ⟨positional, (key, json) :: fields⟩ name decode =
      if name = key then decode json else required ⟨positional, fields⟩ name decode := by
  rw [required, find?_cons]
  split <;> rfl

theorem optional_cons :
    optional ⟨positional, (key, json) :: fields⟩ name decode =
      if name = key then json.option? decode else optional ⟨positional, fields⟩ name decode := by
  rw [optional, find?_cons]
  by_cases same : name = key
  · rw [if_pos same, if_pos same]
  · rw [if_neg same, if_neg same, optional]

end Record

end Json

structure NodeSnapshot.Fits (node : NodeSnapshot) : Prop where
  id : node.id ≤ maxHalfWord
  doneAt : node.doneAt ≤ maxTime
  messagesSent : node.messagesSent ≤ maxTime
  messagesReceived : node.messagesReceived ≤ maxTime
  bytesSent : node.bytesSent ≤ maxTime
  bytesReceived : node.bytesReceived ≤ maxTime
  state : node.state ≤ maxTime

theorem NodeSnapshot.carries {node : NodeSnapshot} (fits : node.Fits) :
    Json.Carries toJson ofJson? node := by
  have id := Json.carries_halfWord fits.id
  have down := Json.carries_bool node.down
  have doneAt := Json.carries_word fits.doneAt
  have messagesSent := Json.carries_word fits.messagesSent
  have messagesReceived := Json.carries_word fits.messagesReceived
  have bytesSent := Json.carries_word fits.bytesSent
  have bytesReceived := Json.carries_word fits.bytesReceived
  have state := Json.carries_word fits.state
  constructor
  · apply Json.Faithful.object
    simp only [List.forall_mem_cons, List.not_mem_nil, false_implies, implies_true, and_true]
    exact ⟨id.faithful, down.faithful, doneAt.faithful, messagesSent.faithful,
      messagesReceived.faithful, bytesSent.faithful, bytesReceived.faithful, state.faithful⟩
  · rw [toJson, ofJson?, Json.record?_object (by rfl) (by decide)]
    simp only [Json.Record.required_cons, String.reduceEq, ↓reduceIte, Option.bind_eq_bind,
      Option.bind_some, id.decoded, down.decoded, doneAt.decoded, messagesSent.decoded,
      messagesReceived.decoded, bytesSent.decoded, bytesReceived.decoded, state.decoded]

structure Counters.Fits (counters : Counters) : Prop where
  messagesSent : counters.messagesSent ≤ maxTime
  messagesDelivered : counters.messagesDelivered ≤ maxTime
  droppedDown : counters.droppedDown ≤ maxTime
  droppedPartition : counters.droppedPartition ≤ maxTime
  droppedDiscarded : counters.droppedDiscarded ≤ maxTime
  droppedAtDelivery : counters.droppedAtDelivery ≤ maxTime
  tasksFired : counters.tasksFired ≤ maxTime
  tasksSkipped : counters.tasksSkipped ≤ maxTime

theorem Counters.carries {counters : Counters} (fits : counters.Fits) :
    Json.Carries toJson ofJson? counters := by
  have messagesSent := Json.carries_word fits.messagesSent
  have messagesDelivered := Json.carries_word fits.messagesDelivered
  have droppedDown := Json.carries_word fits.droppedDown
  have droppedPartition := Json.carries_word fits.droppedPartition
  have droppedDiscarded := Json.carries_word fits.droppedDiscarded
  have droppedAtDelivery := Json.carries_word fits.droppedAtDelivery
  have tasksFired := Json.carries_word fits.tasksFired
  have tasksSkipped := Json.carries_word fits.tasksSkipped
  constructor
  · apply Json.Faithful.object
    simp only [List.forall_mem_cons, List.not_mem_nil, false_implies, implies_true, and_true]
    exact ⟨messagesSent.faithful, messagesDelivered.faithful, droppedDown.faithful,
      droppedPartition.faithful, droppedDiscarded.faithful, droppedAtDelivery.faithful,
      tasksFired.faithful, tasksSkipped.faithful⟩
  · rw [toJson, ofJson?, Json.record?_object (by rfl) (by decide)]
    simp only [Json.Record.required_cons, String.reduceEq, ↓reduceIte, Option.bind_eq_bind,
      Option.bind_some, messagesSent.decoded, messagesDelivered.decoded, droppedDown.decoded,
      droppedPartition.decoded, droppedDiscarded.decoded, droppedAtDelivery.decoded,
      tasksFired.decoded, tasksSkipped.decoded]

structure Snapshot.Fits (snapshot : Snapshot) : Prop where
  time : snapshot.time ≤ maxTime
  counters : snapshot.counters.Fits
  nodes : ∀ node ∈ snapshot.nodes, node.Fits

theorem Snapshot.carries {snapshot : Snapshot} (fits : snapshot.Fits) :
    Json.Carries toJson ofJson? snapshot := by
  have time := Json.carries_word fits.time
  have counters := Counters.carries fits.counters
  have nodes := Json.Carries.ofList fun node held => NodeSnapshot.carries (fits.nodes node held)
  constructor
  · apply Json.Faithful.object
    simp only [List.forall_mem_cons, List.not_mem_nil, false_implies, implies_true, and_true]
    exact ⟨time.faithful, counters.faithful, nodes.faithful⟩
  · rw [toJson, ofJson?, Json.record?_object (by rfl) (by decide)]
    simp only [Json.Record.required_cons, String.reduceEq, ↓reduceIte, Option.bind_eq_bind,
      Option.bind_some, time.decoded, counters.decoded, nodes.decoded]

structure StepSummary.Fits (summary : StepSummary) : Prop where
  step : summary.step ≤ maxHalfWord
  time : summary.time ≤ maxTime
  doneNodes : summary.doneNodes ≤ maxTime
  messagesDelivered : summary.messagesDelivered ≤ maxTime

theorem StepSummary.carries {summary : StepSummary} (fits : summary.Fits) :
    Json.Carries toJson ofJson? summary := by
  have step := Json.carries_halfWord fits.step
  have time := Json.carries_word fits.time
  have matched := Json.carries_bool summary.matched
  have doneNodes := Json.carries_word fits.doneNodes
  have messagesDelivered := Json.carries_word fits.messagesDelivered
  constructor
  · apply Json.Faithful.object
    simp only [List.forall_mem_cons, List.not_mem_nil, false_implies, implies_true, and_true]
    exact ⟨step.faithful, time.faithful, matched.faithful, doneNodes.faithful,
      messagesDelivered.faithful⟩
  · rw [toJson, ofJson?, Json.record?_object (by rfl) (by decide)]
    simp only [Json.Record.required_cons, String.reduceEq, ↓reduceIte, Option.bind_eq_bind,
      Option.bind_some, step.decoded, time.decoded, matched.decoded, doneNodes.decoded,
      messagesDelivered.decoded]

structure Divergence.Fits (divergence : Divergence) : Prop where
  step : divergence.step ≤ maxHalfWord
  time : divergence.time ≤ maxTime
  node : ∀ node ∈ divergence.node, node ≤ maxHalfWord
  primary : ∀ node ∈ divergence.primary, node.Fits
  copy : ∀ node ∈ divergence.copy, node.Fits

theorem Divergence.carries {divergence : Divergence} (fits : divergence.Fits) :
    Json.Carries toJson ofJson? divergence := by
  have step := Json.carries_halfWord fits.step
  have time := Json.carries_word fits.time
  have node := Json.Carries.ofOption nofun fun node held =>
    Json.carries_halfWord (fits.node node held)
  have primary := Json.Carries.ofOption nofun fun node held =>
    NodeSnapshot.carries (fits.primary node held)
  have copy := Json.Carries.ofOption nofun fun node held =>
    NodeSnapshot.carries (fits.copy node held)
  constructor
  · apply Json.Faithful.object
    simp only [List.forall_mem_cons, List.not_mem_nil, false_implies, implies_true, and_true]
    exact ⟨step.faithful, time.faithful, node.faithful, primary.faithful, copy.faithful⟩
  · rw [toJson, ofJson?, Json.record?_object (by rfl) (by decide)]
    simp only [Json.Record.required_cons, Json.Record.optional_cons, String.reduceEq, ↓reduceIte,
      Option.bind_eq_bind, Option.bind_some, step.decoded, time.decoded, node.decoded,
      primary.decoded, copy.decoded]

/-! Alerts -/

theorem AlertKind.carries (kind : AlertKind) : Json.Carries toJson ofJson? kind := by
  constructor
  · exact .string kind.tag
  · cases kind <;> rfl

namespace Alert

/-- Each name once, in the order of the names. -/
def Sorted (metrics : List (String × Float)) : Prop :=
  metrics.Pairwise fun earlier later => earlier.1 < later.1

theorem names_insertMetric {metrics : List (String × Float)} {name : String} {value : Float}
    {metric : String × Float} (mem : metric ∈ insertMetric name value metrics) :
    metric.1 = name ∨ metric ∈ metrics := by
  induction metrics with
  | nil =>
      rw [insertMetric, List.mem_singleton] at mem
      exact .inl (congrArg Prod.fst mem)
  | cons first metrics induction =>
      rw [insertMetric] at mem
      split_ifs at mem
      all_goals grind

theorem sorted_insertMetric {metrics : List (String × Float)} (sorted : Sorted metrics)
    (name : String) (value : Float) : Sorted (insertMetric name value metrics) := by
  induction metrics with
  | nil => exact List.pairwise_singleton ..
  | cons metric metrics induction =>
      obtain ⟨first, rest⟩ := List.pairwise_cons.mp sorted
      rw [insertMetric]
      split_ifs with below same
      · refine List.pairwise_cons.mpr ⟨?_, sorted⟩
        rw [List.forall_mem_cons]
        exact ⟨below, fun other mem => String.lt_trans below (first other mem)⟩
      · subst same
        exact List.pairwise_cons.mpr ⟨first, rest⟩
      · refine List.pairwise_cons.mpr ⟨fun other mem => ?_, induction rest⟩
        rcases names_insertMetric mem with named | mem
        · rw [named]
          exact Std.lt_of_le_of_ne (String.not_lt.mp below) (Ne.symm same)
        · exact first other mem

theorem sorted_insertMetrics {fields : List (String × Json)} {held metrics : List (String × Float)}
    (sorted : Sorted held) (inserted : insertMetrics fields held = some metrics) :
    Sorted metrics := by
  induction fields generalizing held with
  | nil =>
      rw [insertMetrics] at inserted
      cases inserted
      exact sorted
  | cons field fields induction =>
      rw [insertMetrics] at inserted
      split at inserted
      · cases inserted
      · exact induction (sorted_insertMetric sorted ..) inserted

theorem insertMetric_last {name : String} {held : List (String × Float)}
    (last : ∀ metric ∈ held, metric.1 < name) (value : Float) :
    insertMetric name value held = held ++ [(name, value)] := by
  induction held with
  | nil => rfl
  | cons metric held induction =>
      rw [List.forall_mem_cons] at last
      have above : ¬ name < metric.1 := fun below => String.lt_asymm last.1 below
      have other : name ≠ metric.1 := fun same => String.lt_irrefl _ (same ▸ last.1)
      rw [insertMetric, if_neg above, if_neg other, induction last.2, List.cons_append]

theorem insertMetrics_sorted {metrics held : List (String × Float)}
    (sorted : Sorted (held ++ metrics)) :
    insertMetrics (metrics.map fun metric => (metric.1, .float metric.2)) held =
      some (held ++ metrics) := by
  induction metrics generalizing held with
  | nil => rw [List.map_nil, insertMetrics, List.append_nil]
  | cons metric metrics induction =>
      have last : ∀ other ∈ held, other.1 < metric.1 := fun other mem =>
        (List.pairwise_append.mp sorted).2.2 other mem metric List.mem_cons_self
      rw [List.append_cons] at sorted ⊢
      rw [List.map_cons, insertMetrics, Json.float?]
      dsimp only
      rw [insertMetric_last last, induction sorted]

theorem sorted_of_ofJson? {json : Json} {alert : Alert} (decoded : ofJson? json = some alert) :
    Sorted alert.metrics := by
  simp only [ofJson?, Option.bind_eq_bind, Option.bind_eq_some_iff] at decoded
  obtain ⟨record, -, kind, -, step, -, time, -, message, -, metrics, found, made⟩ := decoded
  cases made
  obtain ⟨field, -, read⟩ := Option.bind_eq_some_iff.mp found
  rw [metricsOfJson?.eq_def] at read
  split at read
  · exact sorted_insertMetrics .nil read
  · cases read

theorem sorted_withMetric {alert : Alert} (sorted : Sorted alert.metrics) (name : String)
    (value : Float) : Sorted (alert.withMetric name value).metrics :=
  sorted_insertMetric sorted name value

theorem sorted_of_mem_raised {monitor : Monitor} {snapshot : Snapshot} {alert : Alert}
    (mem : alert ∈ monitor.raised snapshot) : Sorted alert.metrics := by
  simp only [Monitor.raised, Monitor.stallAlert?, Monitor.dropRateAlert?, Monitor.downAlert?,
    List.mem_append, Option.mem_toList, Option.ite_none_right_eq_some, Option.some.injEq] at mem
  rcases mem with ((⟨-, rfl⟩ | ⟨-, rfl⟩) | ⟨-, rfl⟩)
  · apply sorted_withMetric
    exact .nil
  · apply sorted_withMetric
    apply sorted_withMetric
    exact .nil
  · apply sorted_withMetric
    exact .nil

structure Fits (alert : Alert) : Prop where
  step : alert.step ≤ maxHalfWord
  time : alert.time ≤ maxTime
  metrics : Sorted alert.metrics

theorem carries {alert : Alert} (fits : alert.Fits)
    (exact : ∀ metric ∈ alert.metrics, Json.ReadsBack metric.2) :
    Json.Carries toJson ofJson? alert := by
  have kind := AlertKind.carries alert.kind
  have step := Json.carries_halfWord fits.step
  have time := Json.carries_word fits.time
  have message := Json.carries_string alert.message
  have metrics : insertMetrics (alert.metrics.map fun metric => (metric.1, .float metric.2)) [] =
      some alert.metrics :=
    insertMetrics_sorted fits.metrics
  constructor
  · apply Json.Faithful.object
    simp only [List.forall_mem_cons, List.not_mem_nil, false_implies, implies_true, and_true]
    refine ⟨kind.faithful, step.faithful, time.faithful, message.faithful, .object ?_⟩
    intro field mem
    obtain ⟨metric, held, rfl⟩ := List.mem_map.mp mem
    exact .float (exact metric held)
  · rw [toJson, ofJson?, Json.record?_object (by rfl) (by decide)]
    simp only [Json.Record.required_cons, String.reduceEq, ↓reduceIte, Option.bind_eq_bind,
      Option.bind_some, kind.decoded, step.decoded, time.decoded, message.decoded, metricsOfJson?,
      metrics]

end Alert

namespace ReplayReport

structure Fits (report : ReplayReport) : Prop where
  seed : report.seed ≤ maxTime
  stepMs : report.stepMs ≤ maxTime
  stepsRun : report.stepsRun ≤ maxHalfWord
  steps : ∀ summary ∈ report.steps, summary.Fits
  divergence : ∀ divergence ∈ report.divergence, divergence.Fits
  alerts : ∀ alert ∈ report.alerts, alert.Fits
  finalSnapshot : report.finalSnapshot.Fits

theorem carries {report : ReplayReport} (fits : report.Fits)
    (exact : ∀ alert ∈ report.alerts, ∀ metric ∈ alert.metrics, Json.ReadsBack metric.2) :
    Json.Carries toJson ofJson? report := by
  have seed := Json.carries_word fits.seed
  have stepMs := Json.carries_word fits.stepMs
  have stepsRun := Json.carries_halfWord fits.stepsRun
  have steps := Json.Carries.ofList fun summary held =>
    StepSummary.carries (fits.steps summary held)
  have divergence := Json.Carries.ofOption nofun fun divergence held =>
    Divergence.carries (fits.divergence divergence held)
  have alerts := Json.Carries.ofList fun alert held =>
    Alert.carries (fits.alerts alert held) (exact alert held)
  have finalSnapshot := Snapshot.carries fits.finalSnapshot
  constructor
  · apply Json.Faithful.object
    simp only [List.forall_mem_cons, List.not_mem_nil, false_implies, implies_true, and_true]
    exact ⟨seed.faithful, stepMs.faithful, stepsRun.faithful, steps.faithful,
      divergence.faithful, alerts.faithful, finalSnapshot.faithful⟩
  · rw [toJson, ofJson?, Json.record?_object (by rfl) (by decide)]
    simp only [Json.Record.required_cons, Json.Record.optional_cons, String.reduceEq, ↓reduceIte,
      Option.bind_eq_bind, Option.bind_some, seed.decoded, stepMs.decoded, stepsRun.decoded,
      steps.decoded, divergence.decoded, alerts.decoded, finalSnapshot.decoded]

/-- Printing a report and reading the text back gives the report, if the reader finds the numbers
of its alerts again. -/
theorem ofText_toText {report : ReplayReport} (fits : report.Fits)
    (finite : ∀ alert ∈ report.alerts, ∀ metric ∈ alert.metrics, metric.2.isFinite = true)
    (exact : ∀ alert ∈ report.alerts, ∀ metric ∈ alert.metrics,
      metric.2.isFinite = true → Json.ReadsBack metric.2) :
    ofText report.toText = .ok report := by
  have carries := carries fits fun alert held metric named =>
    exact alert held metric named (finite alert held metric named)
  have read : Json.parse report.toJson.pretty = some report.toJson :=
    Json.parse_pretty carries.faithful
  rw [ofText, toText, read, Option.bind_some, carries.decoded]

def strained : ReplayReport where
  seed := maxTime
  stepMs := 1
  stepsRun := maxHalfWord
  steps := [⟨maxHalfWord, maxTime, false, 0, maxTime⟩]
  divergence := some ⟨1, 0, some maxHalfWord, none,
    some ⟨maxHalfWord, true, maxTime, 0, maxTime, 0x20000000000001, 0, maxTime⟩⟩
  alerts := [
    ⟨.stalled, 1, 0, "", []⟩,
    ⟨.highDropRate, 2, maxTime, "\"75%\"\t\\ \n\u0001 für 東京 🗼",
      [("", -0.5), ("\"attempts\"", 20), ("drop_rate", 0.75)]⟩]
  finalSnapshot := ⟨maxTime, {}, []⟩

theorem strained_ofText_toText : ofText strained.toText = .ok strained := by
  have inner : NodeSnapshot.Fits
      ⟨maxHalfWord, true, maxTime, 0, maxTime, 0x20000000000001, 0, maxTime⟩ := by
    constructor <;> decide
  apply ofText_toText
  · constructor
    case steps => exact List.forall_mem_singleton.mpr (by constructor <;> decide)
    case divergence =>
      rintro _ ⟨⟩
      constructor
      case primary => exact nofun
      case copy =>
        rintro _ ⟨⟩
        exact inner
      all_goals decide
    case alerts =>
      refine List.forall_mem_cons.mpr ⟨?_, List.forall_mem_singleton.mpr ?_⟩
      all_goals exact ⟨by decide, by decide, by rw [Alert.Sorted]; decide +kernel⟩
    case finalSnapshot => exact ⟨by decide, by constructor <;> decide, nofun⟩
    all_goals decide
  · decide +kernel
  · decide +kernel

end ReplayReport

end Simnet
