import Simnet.LockStep

namespace Simnet

/-! What a lock-step replay comes to, told without the loop: two simulations lead to a list
of pairs of snapshots, some rules say how long this list gets, and the report is a
description of it. -/

def Matched (pairs : List (Snapshot × Snapshot)) : Prop :=
  ∀ pair ∈ pairs, pair.1 = pair.2

/-- The first pair that differs, whatever comes after it. -/
inductive Diverges : List (Snapshot × Snapshot) → Divergence → Prop
  | first {earlier : List (Snapshot × Snapshot)} {primary copy : Snapshot}
      (later : List (Snapshot × Snapshot)) (matched : Matched earlier)
      (differs : primary ≠ copy) :
      Diverges (earlier ++ (primary, copy) :: later)
        (.between (earlier.length + 1) primary copy)

def Monitor.shown (config : MonitorConfig) (snapshots : List Snapshot) : Monitor :=
  snapshots.foldl (fun monitor snapshot => (monitor.observe snapshot).2) (.new config)

namespace ReplayConfig

variable (config : ReplayConfig)

/-- One more step is to be executed. -/
structure Continues (pairs : List (Snapshot × Snapshot)) : Prop where
  room : pairs.length < config.steps
  free : config.stopOnDivergence = true → Matched pairs

/-- No more steps are to be executed: either all were, or the last one was the first to
differ and it was asked to stop there. -/
inductive Completes : List (Snapshot × Snapshot) → Prop
  | whole {pairs : List (Snapshot × Snapshot)} (all : pairs.length = config.steps)
      (free : config.stopOnDivergence = true → Matched pairs) : Completes pairs
  | stopped {earlier : List (Snapshot × Snapshot)} {last : Snapshot × Snapshot}
      (stops : config.stopOnDivergence = true) (room : earlier.length < config.steps)
      (matched : Matched earlier) (differs : last.1 ≠ last.2) : Completes (earlier ++ [last])

def summaries (pairs : List (Snapshot × Snapshot)) : List StepSummary :=
  (pairs.zipIdx 1).map fun entry =>
    { step := entry.2
      time := entry.1.1.time
      matched := entry.1.1 = entry.1.2
      doneNodes := entry.1.1.doneCount
      messagesDelivered := entry.1.1.counters.messagesDelivered }

structure Describes (pairs : List (Snapshot × Snapshot)) (report : ReplayReport) : Prop where
  seed : report.seed = config.seed
  stepMs : report.stepMs = config.stepMs
  stepsRun : report.stepsRun = pairs.length
  steps : report.steps = summaries pairs
  agreed : report.divergence = none ↔ Matched pairs
  diverged : ∀ divergence, report.divergence = some divergence ↔ Diverges pairs divergence
  alerts : report.alerts = (Monitor.shown config.monitor (pairs.map (·.1))).alerts
  final : (pairs.map (·.1)).getLast? = some report.finalSnapshot

end ReplayConfig

namespace Rebuildable

variable {σ : Type} (rebuildable : Rebuildable σ) (stepMs : Nat)

structure Advances (before after : σ × σ) : Prop where
  primary : rebuildable.run stepMs before.1 = some (.ok (), after.1)
  copy : rebuildable.run stepMs before.2 = some (.ok (), after.2)

/-- A step ends with an error, that of the primary if it has one. -/
inductive Fails (pair : σ × σ) (error : Error) : Prop
  | primary {left : σ} (failed : rebuildable.run stepMs pair.1 = some (.error error, left))
  | copy {left right : σ} (passed : rebuildable.run stepMs pair.1 = some (.ok (), left))
      (failed : rebuildable.run stepMs pair.2 = some (.error error, right))

inductive Hangs (pair : σ × σ) : Prop
  | primary (endless : rebuildable.run stepMs pair.1 = none)
  | copy {left : σ} (passed : rebuildable.run stepMs pair.1 = some (.ok (), left))
      (endless : rebuildable.run stepMs pair.2 = none)

/-- The pairs after each of some steps, and again the last of them. -/
inductive Traces : σ × σ → List (σ × σ) → σ × σ → Prop
  | still (pair : σ × σ) : Traces pair [] pair
  | step {pair next last : σ × σ} {rest : List (σ × σ)}
      (advances : rebuildable.Advances stepMs pair next) (traces : Traces next rest last) :
      Traces pair (next :: rest) last

def view (pair : σ × σ) : Snapshot × Snapshot :=
  (rebuildable.snapshot pair.1, rebuildable.snapshot pair.2)

/-- What a replay comes to from a pair of simulations: the error of the first step that
fails, nothing at all, or a report of all its steps. -/
inductive Replays (config : ReplayConfig) (start : σ × σ) :
    Option (Except ReplayError ReplayReport) → Prop
  | failed {trace : List (σ × σ)} {last : σ × σ} {source : Error}
      (traces : rebuildable.Traces config.stepMs start trace last)
      (continues : config.Continues (trace.map rebuildable.view))
      (fails : rebuildable.Fails config.stepMs last source) :
      Replays config start (some (.error (.simulation source)))
  | hung {trace : List (σ × σ)} {last : σ × σ}
      (traces : rebuildable.Traces config.stepMs start trace last)
      (continues : config.Continues (trace.map rebuildable.view))
      (hangs : rebuildable.Hangs config.stepMs last) : Replays config start none
  | reported {trace : List (σ × σ)} {last : σ × σ} {report : ReplayReport}
      (traces : rebuildable.Traces config.stepMs start trace last)
      (completes : config.Completes (trace.map rebuildable.view))
      (describes : config.Describes (trace.map rebuildable.view) report) :
      Replays config start (some (.ok report))

end Rebuildable

/-! One more pair -/

section Pairs

variable {earlier later pairs : List (Snapshot × Snapshot)} {pair : Snapshot × Snapshot}

theorem matched_append_singleton :
    Matched (pairs ++ [pair]) ↔ Matched pairs ∧ pair.1 = pair.2 := by
  simp only [Matched, List.forall_mem_append, List.forall_mem_singleton]

theorem Matched.of_append (matched : Matched (earlier ++ later)) : Matched earlier :=
  fun pair member => matched pair (List.mem_append_left later member)

theorem diverges_append_singleton {divergence : Divergence} :
    Diverges (pairs ++ [pair]) divergence ↔
      Diverges pairs divergence ∨ Matched pairs ∧ pair.1 ≠ pair.2 ∧
        divergence = .between (pairs.length + 1) pair.1 pair.2 := by
  constructor
  · intro diverges
    generalize whole : pairs ++ [pair] = all at diverges
    cases diverges with
    | @first earlier primary copy later matched differs =>
        rcases List.eq_nil_or_concat later with rfl | ⟨middle, last, rfl⟩
        · obtain ⟨rfl, last⟩ := List.append_inj' whole rfl
          cases last
          exact .inr ⟨matched, differs, rfl⟩
        · rw [List.concat_eq_append, ← List.cons_append, ← List.append_assoc] at whole
          obtain ⟨rfl, -⟩ := List.append_inj' whole rfl
          exact .inl (.first middle matched differs)
  · rintro (⟨later, matched, differs⟩ | ⟨matched, differs, rfl⟩)
    · rw [List.append_assoc, List.cons_append]
      exact .first _ matched differs
    · exact .first [] matched differs

theorem Diverges.not_matched {divergence : Divergence} (diverges : Diverges pairs divergence) :
    ¬ Matched pairs := by
  cases diverges with
  | @first earlier primary copy later matched differs =>
      exact fun all => differs (all (primary, copy) (by simp))

theorem summaries_append_singleton :
    ReplayConfig.summaries (pairs ++ [pair]) =
      ReplayConfig.summaries pairs ++ [.ofSnapshots (pairs.length + 1) pair.1 pair.2] := by
  unfold ReplayConfig.summaries
  rw [List.zipIdx_append, List.map_append, Nat.add_comm]
  rfl

theorem Monitor.shown_append_singleton (config : MonitorConfig) (snapshots : List Snapshot)
    (snapshot : Snapshot) :
    shown config (snapshots ++ [snapshot]) = ((shown config snapshots).observe snapshot).2 := by
  rw [shown, List.foldl_append]
  rfl

end Pairs

/-! There is one way for a replay to go -/

namespace ReplayConfig

variable {config : ReplayConfig} {earlier later pairs : List (Snapshot × Snapshot)}
variable {pair : Snapshot × Snapshot}

theorem Completes.not_continues (completes : config.Completes pairs) :
    ¬ config.Continues pairs := by
  intro continues
  cases completes with
  | whole all free => exact Nat.ne_of_lt continues.room all
  | stopped stops room matched differs =>
      exact differs (matched_append_singleton.mp (continues.free stops)).2

theorem Completes.length_le (completes : config.Completes pairs) :
    pairs.length ≤ config.steps := by
  cases completes with
  | whole all free => exact Nat.le_of_eq all
  | stopped stops room matched differs =>
      rw [List.length_append, List.length_singleton]
      exact room

theorem continues_of_append
    (lasts : config.Continues (earlier ++ pair :: later) ∨
      config.Completes (earlier ++ pair :: later)) : config.Continues earlier := by
  have longer : (earlier ++ pair :: later).length = earlier.length + later.length + 1 := by
    rw [List.length_append, List.length_cons, Nat.add_assoc]
  rcases lasts with continues | completes
  · have room := continues.room
    exact ⟨by omega, fun stops => (continues.free stops).of_append⟩
  · have bound := completes.length_le
    refine ⟨by omega, ?_⟩
    intro stops
    generalize whole : earlier ++ pair :: later = all at completes
    cases completes with
    | whole _ free =>
        subst whole
        exact (free stops).of_append
    | stopped _ _ matched _ =>
        -- All pairs before the last one match, and the earlier ones are among them.
        rcases List.eq_nil_or_concat later with rfl | ⟨middle, last, rfl⟩
        · obtain ⟨rfl, -⟩ := List.append_inj' whole rfl
          exact matched
        · rw [List.concat_eq_append, ← List.cons_append, ← List.append_assoc] at whole
          obtain ⟨rfl, -⟩ := List.append_inj' whole rfl
          exact matched.of_append

theorem Describes.unique {first second : ReplayReport} (describes : config.Describes pairs first)
    (others : config.Describes pairs second) : first = second := by
  have divergence : first.divergence = second.divergence := by
    apply Option.ext
    intro divergence
    rw [describes.diverged, others.diverged]
  have final := describes.final.symm.trans others.final
  obtain ⟨seed, stepMs, stepsRun, steps, -, -, alerts, -⟩ := describes
  obtain ⟨seed', stepMs', stepsRun', steps', -, -, alerts', -⟩ := others
  cases first
  cases second
  simp_all

end ReplayConfig

namespace Rebuildable

variable {σ : Type} {rebuildable : Rebuildable σ} {stepMs : Nat} {config : ReplayConfig}
variable {start pair next last other : σ × σ} {trace others : List (σ × σ)} {error : Error}

theorem Advances.unique (advances : rebuildable.Advances stepMs pair next)
    (alternative : rebuildable.Advances stepMs pair other) : next = other := by
  have primary := advances.primary.symm.trans alternative.primary
  have copy := advances.copy.symm.trans alternative.copy
  simp only [Option.some.injEq, Prod.mk.injEq, true_and] at primary copy
  exact Prod.ext primary copy

theorem Fails.not_advances (fails : rebuildable.Fails stepMs pair error) :
    ¬ rebuildable.Advances stepMs pair next := by
  intro advances
  cases fails with
  | primary failed => simp [advances.primary] at failed
  | copy _ failed => simp [advances.copy] at failed

theorem Hangs.not_advances (hangs : rebuildable.Hangs stepMs pair) :
    ¬ rebuildable.Advances stepMs pair next := by
  intro advances
  cases hangs with
  | primary endless => simp [advances.primary] at endless
  | copy _ endless => simp [advances.copy] at endless

theorem Fails.unique {source : Error} (fails : rebuildable.Fails stepMs pair error)
    (alternative : rebuildable.Fails stepMs pair source) : error = source := by
  cases fails with
  | primary failed =>
      cases alternative with
      | primary otherFailed => simp_all
      | copy passed _ => simp [passed] at failed
  | copy passed failed =>
      cases alternative with
      | primary otherFailed => simp [passed] at otherFailed
      | copy _ otherFailed => simp_all

theorem Fails.not_hangs (fails : rebuildable.Fails stepMs pair error) :
    ¬ rebuildable.Hangs stepMs pair := by
  intro hangs
  cases fails with
  | primary failed =>
      cases hangs with
      | primary endless => simp [endless] at failed
      | copy passed _ => simp [passed] at failed
  | copy passed failed =>
      cases hangs with
      | primary endless => simp [endless] at passed
      | copy _ endless => simp [endless] at failed

theorem Traces.snoc (traces : rebuildable.Traces stepMs start trace last)
    (advances : rebuildable.Advances stepMs last next) :
    rebuildable.Traces stepMs start (trace ++ [next]) next := by
  induction traces with
  | still pair => exact .step advances (.still next)
  | step first _ induction => exact .step first (induction advances)

theorem Traces.getLast?_eq (traces : rebuildable.Traces stepMs start trace last)
    (inhabited : trace ≠ []) : trace.getLast? = some last := by
  induction traces with
  | still pair => exact absurd rfl inhabited
  | step advances traces induction =>
      cases traces with
      | still => rfl
      | step more later =>
          rw [List.getLast?_cons_cons]
          exact induction (List.cons_ne_nil _ _)

/-- Of two traces from one pair the longer one goes on where the shorter one ends. -/
theorem Traces.compare (traces : rebuildable.Traces stepMs start trace last)
    (alternative : rebuildable.Traces stepMs start others other) :
    trace = others ∧ last = other ∨
      (∃ next rest, others = trace ++ next :: rest ∧ rebuildable.Advances stepMs last next) ∨
      ∃ next rest, trace = others ++ next :: rest ∧
        rebuildable.Advances stepMs other next := by
  induction traces generalizing others with
  | still pair =>
      cases alternative with
      | still => exact .inl ⟨rfl, rfl⟩
      | step advances _ => exact .inr (.inl ⟨_, _, rfl, advances⟩)
  | step advances traces induction =>
      cases alternative with
      | still => exact .inr (.inr ⟨_, _, rfl, advances⟩)
      | step otherAdvances later =>
          obtain rfl := advances.unique otherAdvances
          rcases induction later with
            ⟨rfl, rfl⟩ | ⟨next, rest, rfl, more⟩ | ⟨next, rest, rfl, more⟩
          · exact .inl ⟨rfl, rfl⟩
          · exact .inr (.inl ⟨next, rest, rfl, more⟩)
          · exact .inr (.inr ⟨next, rest, rfl, more⟩)

/-- A trace that is not to be continued, or cannot be. -/
structure Ends (rebuildable : Rebuildable σ) (config : ReplayConfig) (start : σ × σ)
    (trace : List (σ × σ)) (last : σ × σ) : Prop where
  traces : rebuildable.Traces config.stepMs start trace last
  lasts : config.Continues (trace.map rebuildable.view) ∨
    config.Completes (trace.map rebuildable.view)
  closed : config.Continues (trace.map rebuildable.view) →
    ∀ next, ¬ rebuildable.Advances config.stepMs last next

theorem Ends.not_extended (ends : rebuildable.Ends config start trace last)
    (longer : rebuildable.Ends config start (trace ++ next :: others) other) :
    ¬ rebuildable.Advances config.stepMs last next := by
  have lasts := longer.lasts
  rw [List.map_append, List.map_cons] at lasts
  exact ends.closed (ReplayConfig.continues_of_append lasts) next

theorem Ends.unique (ends : rebuildable.Ends config start trace last)
    (alternative : rebuildable.Ends config start others other) :
    trace = others ∧ last = other := by
  rcases ends.traces.compare alternative.traces with
    same | ⟨next, rest, rfl, advances⟩ | ⟨next, rest, rfl, advances⟩
  · exact same
  · exact absurd advances (ends.not_extended alternative)
  · exact absurd advances (alternative.not_extended ends)

theorem Fails.ends (fails : rebuildable.Fails config.stepMs last error)
    (traces : rebuildable.Traces config.stepMs start trace last)
    (continues : config.Continues (trace.map rebuildable.view)) :
    rebuildable.Ends config start trace last :=
  ⟨traces, .inl continues, fun _ _ => fails.not_advances⟩

theorem Hangs.ends (hangs : rebuildable.Hangs config.stepMs last)
    (traces : rebuildable.Traces config.stepMs start trace last)
    (continues : config.Continues (trace.map rebuildable.view)) :
    rebuildable.Ends config start trace last :=
  ⟨traces, .inl continues, fun _ _ => hangs.not_advances⟩

theorem Traces.ends (traces : rebuildable.Traces config.stepMs start trace last)
    (completes : config.Completes (trace.map rebuildable.view)) :
    rebuildable.Ends config start trace last :=
  ⟨traces, .inr completes, fun continues => absurd continues completes.not_continues⟩

theorem Replays.unique {result answer : Option (Except ReplayError ReplayReport)}
    (replays : rebuildable.Replays config start result)
    (alternative : rebuildable.Replays config start answer) : result = answer := by
  cases replays with
  | failed traces continues fails =>
      have ends := fails.ends traces continues
      cases alternative with
      | failed otherTraces otherContinues otherFails =>
          obtain ⟨rfl, rfl⟩ := ends.unique (otherFails.ends otherTraces otherContinues)
          rw [fails.unique otherFails]
      | hung otherTraces otherContinues hangs =>
          obtain ⟨rfl, rfl⟩ := ends.unique (hangs.ends otherTraces otherContinues)
          exact absurd hangs fails.not_hangs
      | reported otherTraces completes _ =>
          obtain ⟨rfl, rfl⟩ := ends.unique (otherTraces.ends completes)
          exact absurd continues completes.not_continues
  | hung traces continues hangs =>
      have ends := hangs.ends traces continues
      cases alternative with
      | failed otherTraces otherContinues fails =>
          obtain ⟨rfl, rfl⟩ := ends.unique (fails.ends otherTraces otherContinues)
          exact absurd hangs fails.not_hangs
      | hung _ _ _ => rfl
      | reported otherTraces completes _ =>
          obtain ⟨rfl, rfl⟩ := ends.unique (otherTraces.ends completes)
          exact absurd continues completes.not_continues
  | reported traces completes describes =>
      have ends := traces.ends completes
      cases alternative with
      | failed otherTraces continues fails =>
          obtain ⟨rfl, rfl⟩ := ends.unique (fails.ends otherTraces continues)
          exact absurd continues completes.not_continues
      | hung otherTraces continues hangs =>
          obtain ⟨rfl, rfl⟩ := ends.unique (hangs.ends otherTraces continues)
          exact absurd continues completes.not_continues
      | reported otherTraces otherCompletes otherDescribes =>
          obtain ⟨rfl, rfl⟩ := ends.unique (otherTraces.ends otherCompletes)
          rw [describes.unique otherDescribes]

end Rebuildable

/-! The loop -/

namespace LockStep

variable {σ : Type} {rebuildable : Rebuildable σ} {config : ReplayConfig}
variable {state : LockStep σ} {pairs : List (Snapshot × Snapshot)}

/-- What the loop remembers of the pairs that it has compared. -/
structure Follows (config : ReplayConfig) (pairs : List (Snapshot × Snapshot))
    (state : LockStep σ) : Prop where
  configured : state.config = config
  monitor : state.monitor = .shown config.monitor (pairs.map (·.1))
  summaries : state.summaries = ReplayConfig.summaries pairs
  agreed : state.divergence = none ↔ Matched pairs
  diverged : ∀ divergence, state.divergence = some divergence ↔ Diverges pairs divergence

def current (state : LockStep σ) : σ × σ :=
  (state.primary, state.copy)

def move (state : LockStep σ) (next : σ × σ) : LockStep σ :=
  { state with primary := next.1, copy := next.2 }

theorem advance_cases (rebuildable : Rebuildable σ) (state : LockStep σ) :
    (∃ error, rebuildable.Fails state.config.stepMs state.current error ∧
      state.advance rebuildable = some (.error (.simulation error))) ∨
    (rebuildable.Hangs state.config.stepMs state.current ∧
      state.advance rebuildable = none) ∨
    ∃ next, rebuildable.Advances state.config.stepMs state.current next ∧
      state.advance rebuildable = some (.ok (state.move next)) := by
  unfold advance
  split
  · rename_i endless
    exact .inr (.inl ⟨.primary endless, rfl⟩)
  · rename_i failed
    exact .inl ⟨_, .primary failed, rfl⟩
  · rename_i primary passed
    split
    · rename_i endless
      exact .inr (.inl ⟨.copy passed endless, rfl⟩)
    · rename_i failed
      exact .inl ⟨_, .copy passed failed, rfl⟩
    · rename_i copy copyPassed
      exact .inr (.inr ⟨(primary, copy), ⟨passed, copyPassed⟩, rfl⟩)

theorem Follows.move (follows : Follows config pairs state) (next : σ × σ) :
    Follows config pairs (state.move next) :=
  ⟨follows.configured, follows.monitor, follows.summaries, follows.agreed, follows.diverged⟩

theorem Follows.compare (follows : Follows config pairs state) (rebuildable : Rebuildable σ) :
    Follows config (pairs ++ [rebuildable.view state.current])
      (state.compare rebuildable (pairs.length + 1)) where
  configured := follows.configured
  monitor := by
    rw [List.map_append, List.map_singleton, Monitor.shown_append_singleton,
      ← follows.monitor]
    rfl
  summaries := by
    rw [summaries_append_singleton, ← follows.summaries]
    rfl
  agreed := by
    rw [matched_append_singleton, ← follows.agreed]
    by_cases same : rebuildable.snapshot state.primary = rebuildable.snapshot state.copy <;>
      simp [LockStep.compare, Rebuildable.view, current, same]
  diverged := by
    intro divergence
    rw [diverges_append_singleton, ← follows.diverged, ← follows.agreed]
    by_cases same : rebuildable.snapshot state.primary = rebuildable.snapshot state.copy
    · simp [LockStep.compare, Rebuildable.view, current, same]
    · cases found : state.divergence <;>
        simp [LockStep.compare, Rebuildable.view, current, same, found, eq_comm]

theorem Follows.stops_iff (follows : Follows config pairs state)
    (rebuildable : Rebuildable σ) :
    (state.compare rebuildable (pairs.length + 1)).stops = true ↔
      config.stopOnDivergence = true ∧
        rebuildable.snapshot state.primary ≠ rebuildable.snapshot state.copy := by
  simp [stops, LockStep.compare, follows.configured, StepSummary.ofSnapshots]

theorem Follows.describes (follows : Follows config pairs state)
    (final : (pairs.map (·.1)).getLast? = some (rebuildable.snapshot state.primary)) :
    config.Describes pairs (state.report rebuildable) where
  seed := congrArg ReplayConfig.seed follows.configured
  stepMs := congrArg ReplayConfig.stepMs follows.configured
  stepsRun := by
    rw [report, follows.summaries, ReplayConfig.summaries, List.length_map, List.length_zipIdx]
  steps := follows.summaries
  agreed := follows.agreed
  diverged := follows.diverged
  alerts := congrArg Monitor.alerts follows.monitor
  final := final

theorem run_eq (rebuildable : Rebuildable σ) (state : LockStep σ) :
    state.run rebuildable =
      (steps rebuildable state.config.steps 1 state).map (·.map (report rebuildable)) := by
  unfold run
  rcases steps rebuildable state.config.steps 1 state with _ | _ | _ <;> rfl

theorem replays_steps {start : σ × σ} (positive : 0 < config.steps) (remaining : Nat)
    {trace : List (σ × σ)} {state : LockStep σ}
    (traces : rebuildable.Traces config.stepMs start trace state.current)
    (follows : Follows config (trace.map rebuildable.view) state)
    (rest : trace.length + remaining = config.steps)
    (free : config.stopOnDivergence = true → Matched (trace.map rebuildable.view)) :
    rebuildable.Replays config start
      ((steps rebuildable remaining (trace.length + 1) state).map
        (·.map (report rebuildable))) := by
  have length : (trace.map rebuildable.view).length = trace.length := List.length_map _
  induction remaining generalizing trace state with
  | zero =>
      have inhabited : trace ≠ [] := List.ne_nil_of_length_pos (by omega)
      refine .reported traces (.whole (by omega) free) (follows.describes ?_)
      rw [List.map_map, List.getLast?_map, traces.getLast?_eq inhabited]
      rfl
  | succ remaining induction =>
      have continues : config.Continues (trace.map rebuildable.view) := ⟨by omega, free⟩
      have cases := advance_cases rebuildable state
      rw [follows.configured] at cases
      unfold steps
      rcases cases with
        ⟨error, fails, advance⟩ | ⟨hangs, advance⟩ | ⟨next, advances, advance⟩ <;> rw [advance]
      · exact .failed traces continues fails
      · exact .hung traces continues hangs
      · have further := traces.snoc advances
        have views : (trace ++ [next]).map rebuildable.view =
            trace.map rebuildable.view ++ [rebuildable.view next] := List.map_append
        have grown : (trace ++ [next]).length = trace.length + 1 := List.length_append
        have compared := (follows.move next).compare rebuildable
        have stops := (follows.move next).stops_iff rebuildable
        rw [length] at compared stops
        dsimp only
        split
        · rename_i stopped
          obtain ⟨asked, differs⟩ := stops.mp stopped
          refine .reported further ?_ ?_
          · rw [views]
            exact .stopped asked continues.room (free asked) differs
          · rw [views]
            apply compared.describes
            rw [List.map_append, List.map_singleton, List.getLast?_concat]
            rfl
        · -- The trace is one step longer and has matched so far, if it was asked to.
          rename_i goesOn
          rw [← grown]
          refine induction further ?_ (by omega) ?_ (List.length_map _)
          · rw [views, grown]
            exact compared
          · intro asked
            rw [views, matched_append_singleton]
            refine ⟨free asked, ?_⟩
            rw [stops] at goesOn
            exact Classical.byContradiction fun differs => goesOn ⟨asked, differs⟩

theorem follows_new {primary : σ} (made : new rebuildable config primary = .ok state) :
    Follows config [] state ∧ state.current = (primary, rebuildable.copy primary) := by
  unfold new at made
  split at made
  · cases made
  · cases made
    refine ⟨⟨rfl, rfl, rfl, ⟨fun _ => List.forall_mem_nil _, fun _ => rfl⟩, ?_⟩, rfl⟩
    intro divergence
    constructor
    · exact nofun
    · exact fun diverges => absurd (List.forall_mem_nil _) diverges.not_matched

/-- A replay of a valid configuration ends with the error of the first step that fails, or with a
report of the pairs of snapshots. -/
theorem run_replays (rebuildable : Rebuildable σ) (config : ReplayConfig)
    (valid : config.validate = .ok ()) (primary : σ) :
    ∃ state, new rebuildable config primary = .ok state ∧
      ∀ result, state.run rebuildable = result ↔
        rebuildable.Replays config (primary, rebuildable.copy primary) result := by
  have positive : 0 < config.steps := by
    unfold ReplayConfig.validate at valid
    split at valid
    · cases valid
    · split at valid
      · cases valid
      · omega
  obtain ⟨state, made⟩ : ∃ state, new rebuildable config primary = .ok state :=
    ⟨_, by rw [new, valid]⟩
  obtain ⟨follows, current⟩ := follows_new made
  have replays : rebuildable.Replays config (primary, rebuildable.copy primary)
      (state.run rebuildable) := by
    rw [run_eq, follows.configured, ← current]
    exact replays_steps positive config.steps (.still _) follows (Nat.zero_add _)
      fun _ => List.forall_mem_nil _
  refine ⟨state, made, ?_⟩
  intro result
  constructor
  · rintro rfl
    exact replays
  · exact replays.unique

end LockStep

/-! A copy that goes wrong for one step -/

/-- A counter of milliseconds. After the second one the copy counts a message too many, and
then it is right again. -/
def Rebuildable.blinking : Rebuildable (Bool × Nat) where
  copy simulation := (true, simulation.2)
  run milliseconds simulation := some (.ok (), (simulation.1, simulation.2 + milliseconds))
  snapshot simulation :=
    { time := simulation.2
      counters := { messagesSent := if simulation = (true, 2) then 1 else 0 }
      nodes := [] }

def Rebuildable.blinked (stop : Bool) : ReplayConfig where
  seed := 0
  stepMs := 1
  steps := 3
  stopOnDivergence := stop

def Rebuildable.blinkReport (steps : List StepSummary) : ReplayReport where
  seed := 0
  stepMs := 1
  stepsRun := steps.length
  steps := steps
  divergence := some ⟨2, 2, none, none, none⟩
  alerts := []
  finalSnapshot := ⟨steps.length, {}, []⟩

open Rebuildable in
theorem blinking_replays :
    (∃ state, LockStep.new blinking (blinked true) (false, 0) = .ok state ∧
      state.run blinking = some (.ok (blinkReport [⟨1, 1, true, 0, 0⟩, ⟨2, 2, false, 0, 0⟩])) ∧
      blinking.Replays (blinked true) ((false, 0), (true, 0))
        (some (.ok (blinkReport [⟨1, 1, true, 0, 0⟩, ⟨2, 2, false, 0, 0⟩])))) ∧
    ∃ state, LockStep.new blinking (blinked false) (false, 0) = .ok state ∧
      blinking.Replays (blinked false) ((false, 0), (true, 0))
        (some (.ok (blinkReport
          [⟨1, 1, true, 0, 0⟩, ⟨2, 2, false, 0, 0⟩, ⟨3, 3, true, 0, 0⟩]))) := by
  obtain ⟨state, made, runs⟩ :=
    LockStep.run_replays blinking (blinked true) rfl (false, 0)
  obtain ⟨other, otherMade, otherRuns⟩ :=
    LockStep.run_replays blinking (blinked false) rfl (false, 0)
  cases made
  cases otherMade
  exact ⟨⟨_, rfl, rfl, (runs _).mp rfl⟩, _, rfl, (otherRuns _).mp rfl⟩

end Simnet
