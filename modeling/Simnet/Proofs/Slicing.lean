import Simnet.Proofs.ExecutionOrder
import Simnet.Proofs.Fuel

namespace Simnet

/-! Cutting a run into slices. The clock is the only thing that a run writes between two
slices, and the next event overwrites it; so a sliced run executes the same events in the
same networks, and fails where the whole run fails. -/

section Slicing

variable {P : Protocol} {behaviour : Behaviour P}

namespace Network

/-! Draining in slices -/

theorem drain_clock (fuel deadline time : Nat) (network : Network P) :
    drain behaviour fuel deadline { network with time := time } =
      drain behaviour fuel deadline network := by
  cases fuel with
  | zero => rfl
  | succ fuel =>
      rw [drain, drain]
      cases network.queue.popDue deadline with
      | none => rfl
      | some taken => rfl

theorem popDue_later {queue rest : EventQueue (Event P)} {first second : Nat}
    {entry : EventKey × Event P} (later : first ≤ second)
    (popped : queue.popDue first = some (entry, rest)) :
    queue.popDue second = some (entry, rest) := by
  obtain ⟨items, count, due⟩ := EventQueue.popDue_eq_some_iff.mp popped
  exact EventQueue.popDue_eq_some_iff.mpr ⟨items, count, Nat.le_trans due later⟩

/-- The step of a calm drain does not depend on the fuel left for its body. -/
theorem drain_succ_of_popDue {fuel deadline : Nat} {network after : Network P}
    {queue : EventQueue (Event P)} {key : EventKey} {event : Event P}
    {result : Except Error Unit}
    (popped : network.queue.popDue deadline = some ((key, event), queue))
    (executed : ∀ run : Runner P,
      { network with queue := queue }.execute behaviour run key event =
        some (result, after)) :
    drain behaviour (fuel + 1) deadline network =
      match result with
      | .error error => some (.error error, after)
      | .ok () => drain behaviour fuel deadline after := by
  rw [drain]
  simp only [popped, executed]
  cases result <;> rfl

theorem drain_slice (calm : behaviour.Calm) {first second : Nat} (later : first ≤ second)
    {fuel : Nat} {network final : Network P} {result : Except Error Unit}
    (drained : drain behaviour fuel second network = some (result, final)) :
    (∃ error, result = .error error ∧ final.halted = true ∧
      drain behaviour fuel first network = some (.error error, final)) ∨
    ∃ middle, drain behaviour fuel first network = some (.ok (), middle) ∧
      middle.time = first ∧ SameFlags network middle ∧
        drain behaviour fuel second middle = some (result, final) := by
  induction fuel generalizing network with
  | zero => cases drained
  | succ fuel induction =>
      cases popped : network.queue.popDue first with
      | none =>
          -- Nothing more is due by `first`: the slice ends here, with the clock set, and
          -- the clock has no part in what follows.
          refine .inr ⟨{ network with time := first }, ?_, rfl, ⟨rfl, rfl⟩, ?_⟩
          · rw [drain, popped]
          · rw [drain_clock]
            exact drained
      | some taken =>
          obtain ⟨⟨key, event⟩, queue⟩ := taken
          obtain ⟨outcome, after, executed, ends⟩ :=
            { network with queue := queue }.execute_calm calm key event
          rw [drain_succ_of_popDue (popDue_later later popped) executed] at drained
          rw [drain_succ_of_popDue popped executed]
          rcases ends with ⟨rfl, flags⟩ | ⟨error, rfl, halted⟩
          · rcases induction drained with failed | ⟨middle, early, clock, same, late⟩
            · exact .inl failed
            · refine .inr ⟨middle, early, clock, ?_, ?_⟩
              · exact .trans ⟨flags.started, flags.halted⟩ same
              · exact drain_extends_succ behaviour fuel _ _ _ late
          · cases drained
            exact .inl ⟨error, rfl, halted, rfl⟩

theorem drain_join (calm : behaviour.Calm) {first second : Nat} (later : first ≤ second)
    {fuel more : Nat} {network middle : Network P} {outcome : Outcome P Unit}
    (early : drain behaviour fuel first network = some (.ok (), middle))
    (late : drain behaviour more second middle = some outcome) :
    ∃ enough, drain behaviour enough second network = some outcome := by
  induction fuel generalizing network with
  | zero => cases early
  | succ fuel induction =>
      cases popped : network.queue.popDue first with
      | none =>
          rw [drain, popped] at early
          cases early
          rw [drain_clock] at late
          exact ⟨more, late⟩
      | some taken =>
          obtain ⟨⟨key, event⟩, queue⟩ := taken
          obtain ⟨result, after, executed, ends⟩ :=
            { network with queue := queue }.execute_calm calm key event
          rw [drain_succ_of_popDue popped executed] at early
          cases result with
          | error error => cases early
          | ok _ =>
              obtain ⟨enough, joined⟩ := induction early
              refine ⟨enough + 1, ?_⟩
              rw [drain_succ_of_popDue (popDue_later later popped) executed]
              exact joined

theorem drain_error (calm : behaviour.Calm) {first second : Nat} (later : first ≤ second)
    {fuel : Nat} {network final : Network P} {error : Error}
    (failed : drain behaviour fuel first network = some (.error error, final)) :
    final.halted = true ∧
      drain behaviour fuel second network = some (.error error, final) := by
  induction fuel generalizing network with
  | zero => cases failed
  | succ fuel induction =>
      cases popped : network.queue.popDue first with
      | none =>
          rw [drain, popped] at failed
          cases failed
      | some taken =>
          obtain ⟨⟨key, event⟩, queue⟩ := taken
          obtain ⟨result, after, executed, ends⟩ :=
            { network with queue := queue }.execute_calm calm key event
          rw [drain_succ_of_popDue popped executed] at failed
          rw [drain_succ_of_popDue (popDue_later later popped) executed]
          rcases ends with ⟨rfl, -⟩ | ⟨source, rfl, halted⟩
          · exact induction failed
          · cases failed
            exact ⟨halted, rfl⟩

theorem drain_flags (calm : behaviour.Calm) {fuel deadline : Nat}
    {network final : Network P}
    (drained : drain behaviour fuel deadline network = some (.ok (), final)) :
    SameFlags network final := by
  rcases drain_slice calm (Nat.le_refl deadline) drained with
    ⟨error, impossible, -, -⟩ | ⟨middle, again, -, flags, -⟩
  · cases impossible
  · rw [drained] at again
    cases again
    exact flags

/-! Runs in slices -/

def Runs (behaviour : Behaviour P) (network : Network P) (deadline : Nat)
    (outcome : Outcome P Unit) : Prop :=
  ∃ fuel, runUntil behaviour fuel deadline network = some outcome

theorem Runs.unique {network : Network P} {deadline : Nat} {outcome other : Outcome P Unit}
    (runs : network.Runs behaviour deadline outcome)
    (otherRuns : network.Runs behaviour deadline other) : outcome = other := by
  obtain ⟨fuel, ran⟩ := runs
  obtain ⟨otherFuel, otherRan⟩ := otherRuns
  have left := runUntil_extends behaviour (Nat.le_max_left fuel otherFuel) _ _ _ ran
  have right := runUntil_extends behaviour (Nat.le_max_right fuel otherFuel) _ _ _ otherRan
  rw [left] at right
  exact Option.some.inj right

theorem runs_of_refused {network : Network P} {deadline : Nat} {error : Error}
    (refused : network.start deadline = .error error) {outcome : Outcome P Unit} :
    network.Runs behaviour deadline outcome ↔ outcome = (.error error, network) := by
  simp only [Runs, runUntil, startThen, refused, Option.some.injEq, exists_const]
  exact eq_comm

theorem runs_of_started {network after : Network P} {deadline : Nat}
    (started : network.start deadline = .ok after) {outcome : Outcome P Unit} :
    network.Runs behaviour deadline outcome ↔
      ∃ fuel, drain behaviour fuel deadline after = some outcome := by
  simp only [Runs, runUntil, startThen, started]

theorem start_of_notPast {network : Network P} {first second : Nat}
    (firstNotPast : network.time ≤ first) (secondNotPast : network.time ≤ second) :
    network.start first = network.start second := by
  unfold start
  rw [if_neg (Nat.not_lt.mpr firstNotPast), if_neg (Nat.not_lt.mpr secondNotPast)]

theorem start_again {network : Network P} {deadline : Nat}
    (underway : network.started = true) (running : network.halted = false)
    (notPast : network.time ≤ deadline) : network.start deadline = .ok network := by
  unfold start
  rw [if_neg (by simp [running]), if_neg (Nat.not_lt.mpr notPast), if_pos underway]

theorem start_halted {network : Network P} (halted : network.halted = true)
    (deadline : Nat) : network.start deadline = .error .halted := by
  unfold start
  rw [if_pos halted]

theorem start_drained (calm : behaviour.Calm) {first second fuel : Nat}
    {network started middle : Network P} (later : first ≤ second)
    (starts : network.start first = .ok started)
    (drained : drain behaviour fuel first started = some (.ok (), middle)) :
    middle.start second = .ok middle := by
  obtain ⟨running, -, rfl⟩ := start_eq_ok starts
  obtain ⟨clock, -⟩ := drain_eq_ok drained
  have flags := drain_flags calm drained
  refine start_again flags.started ?_ ?_
  · rw [flags.halted]
    exact running
  · rw [clock]
    exact later

theorem runs_iff_slices (calm : behaviour.Calm) {network final : Network P}
    {first second : Nat} (notPast : network.time ≤ first) (later : first ≤ second)
    {result : Except Error Unit} :
    network.Runs behaviour second (result, final) ↔
      ∃ early middle late, network.Runs behaviour first (early, middle) ∧
        middle.Runs behaviour second (late, final) ∧ result = (early >>= fun _ => late) := by
  have same := start_of_notPast notPast (Nat.le_trans notPast later)
  cases starts : network.start first with
  | error error =>
      have refused := starts
      rw [same] at refused
      rw [runs_of_refused refused]
      constructor
      · intro ended
        cases ended
        exact ⟨.error error, network, .error error, (runs_of_refused starts).mpr rfl,
          (runs_of_refused refused).mpr rfl, rfl⟩
      · rintro ⟨early, middle, late, earlyRuns, lateRuns, rfl⟩
        cases (runs_of_refused starts).mp earlyRuns
        cases (runs_of_refused refused).mp lateRuns
        rfl
  | ok started =>
      have startsLater := starts
      rw [same] at startsLater
      rw [runs_of_started startsLater]
      constructor
      · rintro ⟨fuel, drained⟩
        rcases drain_slice calm later drained with
          ⟨error, rfl, halted, failed⟩ | ⟨middle, early, -, -, late⟩
        · -- The whole run fails in the first slice, and the second one is refused.
          exact ⟨.error error, final, .error .halted,
            (runs_of_started starts).mpr ⟨fuel, failed⟩,
            (runs_of_refused (start_halted halted second)).mpr rfl, rfl⟩
        · exact ⟨.ok (), middle, result, (runs_of_started starts).mpr ⟨fuel, early⟩,
            (runs_of_started (start_drained calm later starts early)).mpr ⟨fuel, late⟩, rfl⟩
      · rintro ⟨early, middle, late, earlyRuns, lateRuns, rfl⟩
        obtain ⟨fuel, drained⟩ := (runs_of_started starts).mp earlyRuns
        cases early with
        | error error =>
            obtain ⟨halted, failed⟩ := drain_error calm later drained
            cases (runs_of_refused (start_halted halted second)).mp lateRuns
            exact ⟨fuel, failed⟩
        | ok _ =>
            obtain ⟨more, continued⟩ :=
              (runs_of_started (start_drained calm later starts drained)).mp lateRuns
            exact drain_join calm later drained continued

def Stuck (network : Network P) : Prop :=
  ∀ deadline, ∃ error, network.start deadline = .error error

theorem Stuck.runs (behaviour : Behaviour P) {network : Network P} (stuck : network.Stuck)
    (deadline : Nat) :
    ∃ error, network.Runs behaviour deadline (.error error, network) := by
  obtain ⟨error, refused⟩ := stuck deadline
  exact ⟨error, (runs_of_refused refused).mpr rfl⟩

theorem stuck_of_refused {network : Network P} {deadline : Nat} {error : Error}
    (notPast : network.time ≤ deadline) (refused : network.start deadline = .error error) :
    network.Stuck := by
  intro other
  by_cases past : other < network.time
  · unfold start
    rw [if_pos past]
    split
    · exact ⟨_, rfl⟩
    · exact ⟨_, rfl⟩
  · exact ⟨error, (start_of_notPast (Nat.not_lt.mp past) notPast).trans refused⟩

theorem Runs.stuck (calm : behaviour.Calm) {network final : Network P} {deadline : Nat}
    {error : Error} (notPast : network.time ≤ deadline)
    (runs : network.Runs behaviour deadline (.error error, final)) : final.Stuck := by
  cases starts : network.start deadline with
  | error refusal =>
      cases (runs_of_refused starts).mp runs
      exact stuck_of_refused notPast starts
  | ok started =>
      obtain ⟨fuel, failed⟩ := (runs_of_started starts).mp runs
      obtain ⟨halted, -⟩ := drain_error calm (Nat.le_refl deadline) failed
      exact fun other => ⟨.halted, start_halted halted other⟩

theorem Runs.time_eq {network final : Network P} {deadline : Nat}
    (runs : network.Runs behaviour deadline (.ok (), final)) : final.time = deadline := by
  obtain ⟨fuel, ran⟩ := runs
  exact (runUntil_eq_ok ran).1

end Network

/-! Any number of slices -/

inductive Slice
  | upTo (deadline : Nat)
  | milliseconds (count : Nat)
  | seconds (count : Nat)

namespace Slice

def call : Slice → Program P (Except Error Unit)
  | .upTo deadline => .perform (.runUntil deadline)
  | .milliseconds count => .perform (.runFor count)
  | .seconds count => .perform (.runSeconds count)

/-- The instant to which a call at some time runs the network, if it can. -/
def reach (time : Nat) : Slice → Option Nat
  | .upTo deadline => if time ≤ deadline then some deadline else none
  | .milliseconds count => (timeAfter time count).toOption
  | .seconds count =>
      if count * 1000 ≤ maxTime then (timeAfter time (count * 1000)).toOption else none

/-- Makes all calls, whatever they answer, and answers with the first error. -/
def calls : List Slice → Program P (Except Error Unit)
  | [] => .pure (.ok ())
  | slice :: rest =>
      slice.call.bind fun early =>
        (calls rest).bind fun late => .pure (early >>= fun _ => late)

def horizon : (time : Nat) → List Slice → Option Nat
  | time, [] => some time
  | time, slice :: rest =>
      match slice.reach time with
      | none => none
      | some deadline => horizon deadline rest

theorem le_of_reach {slice : Slice} {time deadline : Nat}
    (reaches : slice.reach time = some deadline) : time ≤ deadline := by
  have added : ∀ count, (timeAfter time count).toOption = some deadline →
      time ≤ deadline := by
    intro count reached
    cases after : timeAfter time count with
    | error error => simp [after, Except.toOption] at reached
    | ok instant =>
        simp only [after, Except.toOption, Option.some.injEq] at reached
        have sum := (timeAfter_eq_ok_iff.mp after).1
        omega
  cases slice with
  | upTo other =>
      simp only [reach] at reaches
      split at reaches
      · cases reaches
        assumption
      · cases reaches
  | milliseconds count => exact added count reaches
  | seconds count =>
      simp only [reach] at reaches
      split at reaches
      · exact added _ reaches
      · cases reaches

theorem le_of_horizon {slices : List Slice} {time deadline : Nat}
    (reaches : horizon time slices = some deadline) : time ≤ deadline := by
  induction slices generalizing time with
  | nil =>
      cases reaches
      exact Nat.le_refl _
  | cons slice rest induction =>
      simp only [horizon] at reaches
      cases reached : slice.reach time with
      | none => simp [reached] at reaches
      | some middle =>
          simp only [reached] at reaches
          exact Nat.le_trans (le_of_reach reached) (induction reaches)

def deadline (network : Network P) : Slice → Except Error Nat
  | .upTo deadline => .ok deadline
  | .milliseconds count => network.deadlineAfter count
  | .seconds count => network.deadlineAfterSeconds count

theorem exec_call (slice : Slice) (run : Runner P) (network : Network P) :
    slice.call.exec run network = network.runTo run (slice.deadline network) := by
  cases slice with
  | upTo deadline => exact Program.exec_perform (.runUntil deadline) run network
  | milliseconds count => exact Program.exec_perform (.runFor count) run network
  | seconds count => exact Program.exec_perform (.runSeconds count) run network

theorem deadline_of_reach {slice : Slice} {network : Network P} {deadline : Nat}
    (reaches : slice.reach network.time = some deadline) :
    slice.deadline network = .ok deadline := by
  have added : ∀ count, (timeAfter network.time count).toOption = some deadline →
      network.deadlineAfter count = .ok deadline := by
    intro count reached
    unfold Network.deadlineAfter
    cases after : timeAfter network.time count with
    | error error => simp [after, Except.toOption] at reached
    | ok instant =>
        simp only [after, Except.toOption, Option.some.injEq] at reached
        rw [reached]
  cases slice with
  | upTo other =>
      simp only [reach] at reaches
      split at reaches
      · cases reaches
        rfl
      · cases reaches
  | milliseconds count => exact added count reaches
  | seconds count =>
      simp only [reach] at reaches
      split at reaches
      · rename_i inRange
        simp only [Slice.deadline, Network.deadlineAfterSeconds, if_pos inRange]
        exact added _ reaches
      · cases reaches

theorem ends_call_iff {slice : Slice} {network : Network P} {deadline : Nat}
    (reaches : slice.reach network.time = some deadline) {outcome : Outcome P Unit} :
    slice.call.Ends behaviour network outcome ↔
      network.Runs behaviour deadline outcome := by
  unfold Program.Ends Network.Runs
  simp only [exec_call, deadline_of_reach reaches, Network.runTo]

theorem ends_call_of_stuck (behaviour : Behaviour P) {network : Network P}
    (stuck : network.Stuck) (slice : Slice) :
    ∃ error, slice.call.Ends behaviour network (.error error, network) := by
  unfold Program.Ends
  simp only [exec_call]
  cases slice.deadline network with
  | error error => exact ⟨error, 0, rfl⟩
  | ok deadline => exact stuck.runs behaviour deadline

theorem ends_calls_of_stuck (behaviour : Behaviour P) {network : Network P}
    (stuck : network.Stuck) (slices : List Slice) :
    ∃ result, (calls slices).Ends behaviour network (result, network) := by
  induction slices with
  | nil => exact ⟨.ok (), Program.ends_pure_iff.mpr rfl⟩
  | cons slice rest induction =>
      obtain ⟨error, early⟩ := ends_call_of_stuck behaviour stuck slice
      obtain ⟨late, later⟩ := induction
      refine ⟨.error error, Program.ends_bind_iff.mpr ⟨.error error, network, early, ?_⟩⟩
      exact Program.ends_bind_iff.mpr ⟨late, network, later, Program.ends_pure_iff.mpr rfl⟩

theorem ends_calls_cons_iff {slice : Slice} {rest : List Slice} {network final : Network P}
    {result : Except Error Unit} :
    (calls (slice :: rest)).Ends behaviour network (result, final) ↔
      ∃ early middle late, slice.call.Ends behaviour network (early, middle) ∧
        (calls rest).Ends behaviour middle (late, final) ∧
          result = (early >>= fun _ => late) := by
  simp only [calls, Program.ends_bind_iff, Program.ends_pure_iff, Prod.mk.injEq]
  constructor
  · rintro ⟨early, middle, first, late, last, second, rfl, rfl⟩
    exact ⟨early, middle, late, first, second, rfl⟩
  · rintro ⟨early, middle, late, first, second, rfl⟩
    exact ⟨early, middle, first, late, final, second, rfl, rfl⟩

theorem ends_calls_iff (calm : behaviour.Calm) {slices : List Slice}
    {network final : Network P} {deadline : Nat} {result : Except Error Unit}
    (nonempty : slices ≠ []) (reaches : horizon network.time slices = some deadline) :
    (calls slices).Ends behaviour network (result, final) ↔
      network.Runs behaviour deadline (result, final) := by
  induction slices generalizing network result with
  | nil => exact absurd rfl nonempty
  | cons slice rest induction =>
      simp only [horizon] at reaches
      cases reached : slice.reach network.time with
      | none => simp [reached] at reaches
      | some middleTime =>
          simp only [reached] at reaches
          have notPast := le_of_reach reached
          have later := le_of_horizon reaches
          rw [ends_calls_cons_iff]
          by_cases last : rest = []
          · subst last
            cases reaches
            simp only [ends_call_iff reached, calls, Program.ends_pure_iff, Prod.mk.injEq]
            constructor
            · rintro ⟨early, middle, late, runs, ⟨rfl, rfl⟩, rfl⟩
              cases early <;> exact runs
            · intro runs
              refine ⟨result, final, .ok (), runs, ⟨rfl, rfl⟩, ?_⟩
              cases result <;> rfl
          · rw [Network.runs_iff_slices calm notPast later]
            constructor
            · rintro ⟨early, middle, late, first, second, rfl⟩
              have runs := (ends_call_iff reached).mp first
              cases early with
              | ok _ =>
                  rw [← runs.time_eq] at reaches
                  exact ⟨.ok (), middle, late, runs, (induction last reaches).mp second, rfl⟩
              | error error =>
                  -- Nothing starts any more, so neither the calls nor the run go on.
                  have stuck := runs.stuck calm notPast
                  obtain ⟨_, ended⟩ := ends_calls_of_stuck behaviour stuck rest
                  cases second.unique ended
                  obtain ⟨refusal, refused⟩ := stuck.runs behaviour deadline
                  exact ⟨.error error, _, .error refusal, runs, refused, rfl⟩
            · rintro ⟨early, middle, late, runs, second, rfl⟩
              have first := (ends_call_iff reached).mpr runs
              cases early with
              | ok _ =>
                  rw [← runs.time_eq] at reaches
                  exact ⟨.ok (), middle, late, first, (induction last reaches).mpr second, rfl⟩
              | error error =>
                  have stuck := runs.stuck calm notPast
                  obtain ⟨refusal, refused⟩ := stuck.runs behaviour deadline
                  cases second.unique refused
                  obtain ⟨result, ended⟩ :=
                    ends_calls_of_stuck behaviour stuck rest
                  exact ⟨.error error, _, result, first, ended, rfl⟩

end Slice

/-- Slicing a run does not change it: any two ways of cutting a run up to one instant end alike.
-/
theorem Network.slices_agree (calm : behaviour.Calm) (network : Network P) :
    (∀ first second, network.time ≤ first → first ≤ second → ∀ result final,
      network.Runs behaviour second (result, final) ↔
        ∃ early middle late, network.Runs behaviour first (early, middle) ∧
          middle.Runs behaviour second (late, final) ∧
            result = (early >>= fun _ => late)) ∧
    ∀ (slices others : List Slice) (deadline : Nat), slices ≠ [] → others ≠ [] →
      Slice.horizon network.time slices = some deadline →
      Slice.horizon network.time others = some deadline → ∀ outcome,
        (Slice.calls slices).Ends behaviour network outcome ↔
          (Slice.calls others).Ends behaviour network outcome := by
  constructor
  · intro first second notPast later result final
    exact runs_iff_slices calm notPast later
  · intro slices others deadline nonempty othersNonempty reaches othersReach outcome
    obtain ⟨result, final⟩ := outcome
    rw [Slice.ends_calls_iff calm nonempty reaches,
      Slice.ends_calls_iff calm othersNonempty othersReach]

theorem relay_slices_agree :
    ∃ outcome : Outcome relay Unit, outcome.2.counters.messagesDelivered = 2 ∧
      (Slice.calls [.upTo 5]).Ends relay.behaviour (relay.opened 2) outcome ∧
      (Slice.calls [.milliseconds 3, .upTo 3, .milliseconds 2]).Ends relay.behaviour
        (relay.opened 2) outcome := by
  obtain ⟨-, agree⟩ := Network.slices_agree relay_calm (relay.opened 2)
  have whole : (Slice.calls [.upTo 5]).Ends relay.behaviour (relay.opened 2)
      (.ok (), _) := ⟨3, rfl⟩
  refine ⟨_, ?_, whole, (agree [.upTo 5] _ 5 ?_ ?_ rfl rfl _).mp whole⟩
  · rfl
  · simp
  · simp

end Slicing

end Simnet
