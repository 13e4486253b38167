import Simnet.Proofs.Replay

namespace Simnet

/-! What the alerts of a monitor mean. A monitor keeps a few numbers from one snapshot to the
next; its alerts are stated here by all the snapshots that it was shown. The number of quiet
steps is the length of the longest stretch of equal counts that ends at the last snapshot. -/

def readingAt (measure : Snapshot → Nat) (snapshots : List Snapshot) : Nat → Nat
  | 0 => 0
  | step + 1 => (snapshots[step]?.map measure).getD 0

/-- A count stands still over just so many steps up to this one. -/
structure QuietFor (count : Nat → Nat) (step length : Nat) : Prop where
  within : length ≤ step
  still : ∀ back ≤ length, count (step - back) = count step
  longest : step = length ∨ count (step - length) ≠ count (step - length - 1)

namespace QuietFor

variable {count : Nat → Nat} {step length other : Nat}

instance : Decidable (QuietFor count step length) :=
  decidable_of_iff (length ≤ step ∧ (∀ back ≤ length, count (step - back) = count step) ∧
      (step = length ∨ count (step - length) ≠ count (step - length - 1)))
    ⟨fun ⟨within, still, longest⟩ => ⟨within, still, longest⟩,
      fun ⟨within, still, longest⟩ => ⟨within, still, longest⟩⟩

theorem start (count : Nat → Nat) : QuietFor count 0 0 where
  within := Nat.le_refl 0
  still := by
    intro back first
    rw [Nat.zero_sub]
  longest := .inl rfl

theorem le (quiet : QuietFor count step length) (again : QuietFor count step other) :
    other ≤ length := by
  refine Nat.le_of_not_lt fun longer => ?_
  rcases quiet.longest with whole | changed
  · have := again.within
    omega
  · apply changed
    rw [quiet.still length (Nat.le_refl length), Nat.sub_sub,
      again.still (length + 1) (by omega)]

theorem unique (quiet : QuietFor count step length) (again : QuietFor count step other) :
    length = other :=
  Nat.le_antisymm (again.le quiet) (quiet.le again)

theorem next (quiet : QuietFor count step length) :
    QuietFor count (step + 1) (if count (step + 1) = count step then length + 1 else 0) := by
  split
  · rename_i same
    refine ⟨Nat.succ_le_succ quiet.within, ?_, ?_⟩
    · intro back reach
      cases back with
      | zero => rfl
      | succ back =>
          rw [Nat.succ_sub_succ, same]
          exact quiet.still back (Nat.le_of_succ_le_succ reach)
    · rw [Nat.succ_sub_succ, Nat.succ_inj]
      exact quiet.longest
  · rename_i changed
    refine ⟨Nat.zero_le _, ?_, .inr changed⟩
    intro back reach
    rw [Nat.le_zero.mp reach, Nat.sub_zero]

theorem apart {first second : Nat} (early : QuietFor count first length)
    (late : QuietFor count second length) (before : first < second) :
    ∃ step, first < step ∧ step ≤ second ∧ count step ≠ count (step - 1) := by
  have within := early.within
  rcases late.longest with whole | changed
  · omega
  · refine ⟨second - length, ?_, Nat.sub_le second length, changed⟩
    -- Otherwise the early stretch would hold the step at which the late one begins.
    refine Nat.lt_of_not_le fun overlap => changed ?_
    have here := early.still (first - (second - length)) (by omega)
    have there := early.still (first - (second - length - 1)) (by omega)
    rw [show first - (first - (second - length)) = second - length by omega] at here
    rw [show first - (first - (second - length - 1)) = second - length - 1 by omega] at there
    rw [here, there]

end QuietFor

namespace MonitorConfig

variable (config : MonitorConfig)

/-- The deliveries stand still over just as many steps as are allowed, and some node is not
done. -/
structure Stalls (snapshots : List Snapshot) (step : Nat) (snapshot : Snapshot) : Prop where
  asked : 0 < config.stallSteps
  quiet : QuietFor (readingAt (·.counters.messagesDelivered) snapshots) step config.stallSteps
  unfinished : ∃ node ∈ snapshot.nodes, node.doneAt = 0

def Overdrops (snapshot : Snapshot) : Prop :=
  config.minAttempts ≤ snapshot.counters.attempts ∧
    config.maxDropRate < Monitor.dropRate snapshot.counters

def OverdropsFirst (snapshots : List Snapshot) (step : Nat) (snapshot : Snapshot) : Prop :=
  config.Overdrops snapshot ∧
    ∀ earlier ∈ snapshots.take (step - 1), ¬ config.Overdrops earlier

instance (snapshots : List Snapshot) (step : Nat) (snapshot : Snapshot) :
    Decidable (config.Stalls snapshots step snapshot) :=
  decidable_of_iff (0 < config.stallSteps ∧
      QuietFor (readingAt (·.counters.messagesDelivered) snapshots) step config.stallSteps ∧
      ∃ node ∈ snapshot.nodes, node.doneAt = 0)
    ⟨fun ⟨asked, quiet, unfinished⟩ => ⟨asked, quiet, unfinished⟩,
      fun ⟨asked, quiet, unfinished⟩ => ⟨asked, quiet, unfinished⟩⟩

instance (snapshot : Snapshot) : Decidable (config.Overdrops snapshot) :=
  inferInstanceAs (Decidable (_ ∧ _))

instance (snapshots : List Snapshot) (step : Nat) (snapshot : Snapshot) :
    Decidable (config.OverdropsFirst snapshots step snapshot) :=
  inferInstanceAs (Decidable (_ ∧ ∀ earlier ∈ snapshots.take (step - 1), _))

/-- The alerts that one step gives rise to, by all the snapshots. -/
def alertsAt (snapshots : List Snapshot) (step : Nat) (snapshot : Snapshot) : List Alert :=
  let down := readingAt Snapshot.downCount snapshots
  (if config.Stalls snapshots step snapshot then
    [.stalled step snapshot.time config.stallSteps snapshot.pendingCount] else []) ++
  (if config.OverdropsFirst snapshots step snapshot then
    [.highDropRate step snapshot.time (Monitor.dropRate snapshot.counters)
      snapshot.counters.attempts] else []) ++
  (if down (step - 1) < down step then
    [.nodesDown step snapshot.time (down step) (down (step - 1))] else [])

def alertsUpTo (snapshots : List Snapshot) (step : Nat) : List Alert :=
  ((snapshots.take step).mapIdx fun index snapshot =>
    config.alertsAt snapshots (index + 1) snapshot).flatten

end MonitorConfig

section Alerts

variable {snapshots : List Snapshot} {snapshot : Snapshot} {step : Nat}

theorem readingAt_succ (measure : Snapshot → Nat) (found : snapshots[step]? = some snapshot) :
    readingAt measure snapshots (step + 1) = measure snapshot := by
  rw [readingAt, found, Option.map_some, Option.getD_some]

theorem take_succ_of_found (found : snapshots[step]? = some snapshot) :
    snapshots.take (step + 1) = snapshots.take step ++ [snapshot] := by
  rw [List.take_add_one, found, Option.toList_some]

theorem Snapshot.pendingCount_pos_iff :
    0 < snapshot.pendingCount ↔ ∃ node ∈ snapshot.nodes, node.doneAt = 0 := by
  unfold Snapshot.pendingCount Snapshot.doneCount
  rw [Nat.sub_pos_iff_lt, List.length_filter_lt_length_iff_exists]
  simp

theorem MonitorConfig.alertsUpTo_succ (config : MonitorConfig)
    (found : snapshots[step]? = some snapshot) :
    config.alertsUpTo snapshots (step + 1) =
      config.alertsUpTo snapshots step ++ config.alertsAt snapshots (step + 1) snapshot := by
  have short : (snapshots.take step).length = step := by
    rw [List.length_take]
    have := (List.getElem?_eq_some_iff.mp found).1
    omega
  rw [alertsUpTo, take_succ_of_found found, List.mapIdx_concat, List.flatten_append, short,
    List.flatten_singleton, alertsUpTo]

/-- What a monitor remembers of the snapshots that it was shown first. -/
structure Monitor.Tracks (config : MonitorConfig) (snapshots : List Snapshot) (step : Nat)
    (monitor : Monitor) : Prop where
  configured : monitor.config = config
  counted : monitor.step = step
  delivered :
    monitor.lastDelivered = readingAt (·.counters.messagesDelivered) snapshots step
  quiet : QuietFor (readingAt (·.counters.messagesDelivered) snapshots) step
    monitor.quietSteps
  down : monitor.lastDown = readingAt Snapshot.downCount snapshots step
  flagged : monitor.dropRateFlagged = true ↔
    ∃ earlier ∈ snapshots.take step, config.Overdrops earlier
  alerts : monitor.alerts = config.alertsUpTo snapshots step

namespace Monitor

variable {config : MonitorConfig} {monitor : Monitor}

theorem tracks_new (config : MonitorConfig) (snapshots : List Snapshot) :
    Tracks config snapshots 0 (.new config) where
  configured := rfl
  counted := rfl
  delivered := rfl
  quiet := .start _
  down := rfl
  flagged := by simp [new]
  alerts := rfl

theorem Tracks.quietStepsAt (tracks : monitor.Tracks config snapshots step)
    (found : snapshots[step]? = some snapshot) :
    QuietFor (readingAt (·.counters.messagesDelivered) snapshots) (step + 1)
      (monitor.quietStepsAt snapshot) := by
  unfold Monitor.quietStepsAt
  rw [tracks.delivered, ← readingAt_succ (·.counters.messagesDelivered) found]
  exact tracks.quiet.next

theorem Tracks.stallAlert? (tracks : monitor.Tracks config snapshots step)
    (found : snapshots[step]? = some snapshot) :
    (monitor.stallAlert? snapshot).toList =
      if config.Stalls snapshots (step + 1) snapshot then
        [.stalled (step + 1) snapshot.time config.stallSteps snapshot.pendingCount]
      else [] := by
  have quiet := tracks.quietStepsAt found
  have same : config.Stalls snapshots (step + 1) snapshot ↔
      0 < monitor.quietStepsAt snapshot ∧
        monitor.quietStepsAt snapshot = monitor.config.stallSteps ∧
          0 < snapshot.pendingCount := by
    rw [tracks.configured, Snapshot.pendingCount_pos_iff]
    constructor
    · rintro ⟨asked, stretch, unfinished⟩
      have length := quiet.unique stretch
      exact ⟨length ▸ asked, length, unfinished⟩
    · rintro ⟨some, length, unfinished⟩
      exact ⟨length ▸ some, length ▸ quiet, unfinished⟩
  unfold Monitor.stallAlert?
  by_cases stalls : config.Stalls snapshots (step + 1) snapshot
  · have length := quiet.unique stalls.quiet
    rw [if_pos stalls, if_pos (same.mp stalls), Option.toList_some, tracks.counted, length]
  · rw [if_neg stalls, if_neg (fun raised => stalls (same.mpr raised)), Option.toList_none]

theorem Tracks.overdropsFirst_iff (tracks : monitor.Tracks config snapshots step) :
    config.OverdropsFirst snapshots (step + 1) snapshot ↔
      monitor.dropRateFlagged = false ∧
        monitor.config.minAttempts ≤ snapshot.counters.attempts ∧
          monitor.config.maxDropRate < dropRate snapshot.counters := by
  rw [tracks.configured, ← Bool.not_eq_true, tracks.flagged, not_exists]
  simp only [not_and]
  exact and_comm

theorem Tracks.dropRateAlert? (tracks : monitor.Tracks config snapshots step) :
    (monitor.dropRateAlert? snapshot).toList =
      if config.OverdropsFirst snapshots (step + 1) snapshot then
        [.highDropRate (step + 1) snapshot.time (dropRate snapshot.counters)
          snapshot.counters.attempts]
      else [] := by
  unfold Monitor.dropRateAlert?
  by_cases first : config.OverdropsFirst snapshots (step + 1) snapshot
  · rw [if_pos first, if_pos (tracks.overdropsFirst_iff.mp first), Option.toList_some,
      tracks.counted]
  · rw [if_neg first, if_neg (fun raised => first (tracks.overdropsFirst_iff.mpr raised)),
      Option.toList_none]

theorem Tracks.flagged_observe (tracks : monitor.Tracks config snapshots step)
    (found : snapshots[step]? = some snapshot) :
    (monitor.observe snapshot).2.dropRateFlagged = true ↔
      ∃ earlier ∈ snapshots.take (step + 1), config.Overdrops earlier := by
  have raised : (monitor.dropRateAlert? snapshot).isSome = true ↔
      config.OverdropsFirst snapshots (step + 1) snapshot := by
    rw [tracks.overdropsFirst_iff]
    unfold Monitor.dropRateAlert?
    dsimp only
    split <;> simp_all
  have shown : (∃ earlier ∈ snapshots.take (step + 1), config.Overdrops earlier) ↔
      (∃ earlier ∈ snapshots.take step, config.Overdrops earlier) ∨
        config.Overdrops snapshot := by
    rw [take_succ_of_found found]
    simp only [List.mem_append, List.mem_singleton, or_and_right, exists_or, exists_eq_left]
  rw [observe, Bool.or_eq_true, raised, tracks.flagged, shown]
  constructor
  · rintro (before | first)
    · exact .inl before
    · exact .inr first.1
  · rintro (before | now)
    · exact .inl before
    · refine Classical.or_iff_not_imp_left.mpr fun never => ⟨now, ?_⟩
      exact fun earlier member overdrops => never ⟨earlier, member, overdrops⟩

theorem Tracks.downAlert? (tracks : monitor.Tracks config snapshots step)
    (found : snapshots[step]? = some snapshot) :
    (monitor.downAlert? snapshot).toList =
      if readingAt Snapshot.downCount snapshots step <
          readingAt Snapshot.downCount snapshots (step + 1) then
        [.nodesDown (step + 1) snapshot.time
          (readingAt Snapshot.downCount snapshots (step + 1))
          (readingAt Snapshot.downCount snapshots step)]
      else [] := by
  unfold Monitor.downAlert?
  rw [tracks.down, tracks.counted, readingAt_succ Snapshot.downCount found]
  split
  · rfl
  · rfl

theorem Tracks.raised (tracks : monitor.Tracks config snapshots step)
    (found : snapshots[step]? = some snapshot) :
    monitor.raised snapshot = config.alertsAt snapshots (step + 1) snapshot := by
  rw [Monitor.raised, tracks.stallAlert? found, tracks.dropRateAlert?, tracks.downAlert? found]
  rfl

theorem Tracks.observe (tracks : monitor.Tracks config snapshots step)
    (found : snapshots[step]? = some snapshot) :
    (monitor.observe snapshot).2.Tracks config snapshots (step + 1) where
  configured := tracks.configured
  counted := congrArg (· + 1) tracks.counted
  delivered := (readingAt_succ (·.counters.messagesDelivered) found).symm
  quiet := tracks.quietStepsAt found
  down := (readingAt_succ Snapshot.downCount found).symm
  flagged := tracks.flagged_observe found
  alerts := by
    rw [config.alertsUpTo_succ found, ← tracks.alerts, ← tracks.raised found]
    rfl

theorem tracks_shown (config : MonitorConfig) (within : step ≤ snapshots.length) :
    (shown config (snapshots.take step)).Tracks config snapshots step := by
  induction step with
  | zero => exact tracks_new config snapshots
  | succ step induction =>
      have found : snapshots[step]? = some snapshots[step] := List.getElem?_eq_getElem within
      rw [take_succ_of_found found, shown_append_singleton]
      exact (induction (Nat.le_of_succ_le within)).observe found

/-- A monitor raises just the alerts that each step gives rise to, in their order. -/
theorem raises_exactly (config : MonitorConfig) (snapshots : List Snapshot) :
    (∀ step snapshot, snapshots[step]? = some snapshot →
      ((shown config (snapshots.take step)).observe snapshot).1 =
        config.alertsAt snapshots (step + 1) snapshot) ∧
    (shown config snapshots).alerts = config.alertsUpTo snapshots snapshots.length ∧
    ∀ first second early late, first < second →
      config.Stalls snapshots first early → config.Stalls snapshots second late →
        ∃ step, first < step ∧ step ≤ second ∧
          readingAt (·.counters.messagesDelivered) snapshots step ≠
            readingAt (·.counters.messagesDelivered) snapshots (step - 1) := by
  refine ⟨?_, ?_, ?_⟩
  · intro step snapshot found
    have within := (List.getElem?_eq_some_iff.mp found).1
    exact (tracks_shown config (Nat.le_of_lt within)).raised found
  · have whole := tracks_shown config (Nat.le_refl snapshots.length)
    rw [List.take_length] at whole
    exact whole.alerts
  · exact fun _ _ _ _ before early late => early.quiet.apart late.quiet before

/-- Three messages are delivered in the first step and none afterwards, while one of two nodes
goes down that is not done. -/
def idling : List Snapshot :=
  let node (id : Nat) (down : Bool) : NodeSnapshot := ⟨id, down, 1 - id, 0, 0, 0, 0, 0⟩
  [⟨10, { messagesSent := 3, messagesDelivered := 3 }, [node 0 false, node 1 false]⟩,
    ⟨20, { messagesSent := 3, messagesDelivered := 3 }, [node 0 false, node 1 false]⟩,
    ⟨30, { messagesSent := 3, messagesDelivered := 3 }, [node 0 false, node 1 true]⟩,
    ⟨40, { messagesSent := 3, messagesDelivered := 3 }, [node 0 false, node 1 true]⟩]

theorem idling_raises_exactly :
    (shown { stallSteps := 2 } idling).alerts = [.stalled 3 30 2 1, .nodesDown 3 30 1 0] ∧
    ((shown { stallSteps := 2 } (idling.take 3)).observe
      ⟨40, { messagesSent := 3, messagesDelivered := 3 },
        [⟨0, false, 1, 0, 0, 0, 0, 0⟩, ⟨1, true, 0, 0, 0, 0, 0, 0⟩]⟩).1 = [] := by
  obtain ⟨each, all, -⟩ := raises_exactly { stallSteps := 2 } idling
  exact ⟨all.trans rfl, (each 3 _ rfl).trans rfl⟩

end Monitor

end Alerts

end Simnet
