import Simnet.Proofs.ExecutionOrder

namespace Simnet

/-! Runs inside of runs. A body may run the network that it is executed in, past the
deadline of the run around it, and that run then goes on with a clock that lies behind. No
program sees this while it is executed itself: between its operations the clock only goes
on, and whatever run of its own succeeds leaves nothing behind that is due. -/

section NestedRuns

variable {P : Protocol} {α : Type}

/-- What the clock shows before every operation of a program and at its end. -/
def Program.readings (run : Runner P) : Program P α → Network P → List Nat
  | pure _, network => [network.time]
  | call op next, network =>
      network.time ::
        match op.perform run network with
        | none => []
        | some (answer, after) => (next answer).readings run after

namespace Network

variable {network after : Network P} {floor : Nat}

/-- The queue is in order, and nothing in it is due before now. -/
structure Current (network : Network P) : Prop where
  ordered : network.queue.WellFormed
  ahead : network.Ahead

/-- Neither the clock nor anything pending lies before an instant. -/
structure Beyond (floor : Nat) (network : Network P) : Prop where
  ordered : network.queue.WellFormed
  clock : floor ≤ network.time
  pending : ∀ entry ∈ network.queue.items, floor ≤ entry.1.time

theorem Current.timely (current : network.Current) : Timely [] network where
  ordered := current.ordered
  ahead := current.ahead
  increasing := .nil
  before := by simp [taken]
  passed := by simp [taken]

theorem Current.of_timely {past : List (Moment P)} (timely : Timely past network) :
    network.Current :=
  ⟨timely.ordered, timely.ahead⟩

theorem Current.of_same (current : network.Current) (queue : after.queue = network.queue)
    (time : after.time = network.time) : after.Current where
  ordered := queue ▸ current.ordered
  ahead := by
    unfold Ahead
    rw [queue, time]
    exact current.ahead

theorem Current.beyond (current : network.Current) (reached : floor ≤ network.time) :
    network.Beyond floor where
  ordered := current.ordered
  clock := reached
  pending entry member := Nat.le_trans reached (current.ahead entry member)

theorem Beyond.pushTask (beyond : network.Beyond floor) (record : ScheduledTask P) {next : Nat}
    (late : floor ≤ next) : (network.pushTask next record).Beyond floor where
  ordered := beyond.ordered.push next _
  clock := beyond.clock
  pending := by
    intro entry member
    rcases EventQueue.mem_push.mp member with rfl | old
    · exact late
    · exact beyond.pending entry old

theorem Beyond.recordRearm (beyond : network.Beyond floor) {event : Event P}
    {next : Option Nat} {outcome : Except Error Unit}
    (rearmed : (network.recordRearm event next).result = some (outcome, after))
    (late : ∀ instant, next = some instant → floor ≤ instant) :
    outcome = .ok () ∧ after.Beyond floor := by
  cases event with
  | delivery _ _ _ =>
      cases rearmed
      exact ⟨rfl, beyond⟩
  | task record =>
      cases next with
      | none =>
          cases rearmed
          exact ⟨rfl, beyond⟩
      | some instant =>
          cases rearmed
          exact ⟨rfl, beyond.pushTask record (late instant rfl)⟩

theorem Beyond.lower {lower : Nat} (beyond : network.Beyond floor) (below : lower ≤ floor) :
    network.Beyond lower where
  ordered := beyond.ordered
  clock := Nat.le_trans below beyond.clock
  pending entry member := Nat.le_trans below (beyond.pending entry member)

theorem Effect.current {kept : Prop} {pushes : List (Nat × Event P)}
    (effect : Effect kept network after pushes) (current : network.Current) :
    after.Current where
  ordered := effect.queue ▸ current.ordered.pushAll pushes
  ahead := by
    refine ahead_of_pushAll effect.queue ?_ ?_
    · rw [effect.time]
      exact current.ahead
    · rw [effect.time]
      exact effect.notPast

theorem current_arrive (ordered : network.queue.WellFormed) {queue : EventQueue (Event P)}
    {key : EventKey} {event : Event P} {deadline : Nat}
    (popped : network.queue.popDue deadline = some ((key, event), queue)) :
    (network.arrive queue key.time).Current := by
  obtain ⟨restOrdered, first⟩ := ordered.popDue popped
  exact ⟨restOrdered, fun entry member => (first entry member).time_le⟩

theorem current_of_idle (ordered : network.queue.WellFormed) {deadline : Nat}
    (idle : network.queue.popDue deadline = none) :
    { network with time := deadline }.Current where
  ordered := ordered
  ahead entry member := Nat.le_of_lt (ordered.popDue_eq_none_iff.mp idle entry member)

end Network

/-- A run that starts with nothing overdue ends so, no earlier than it started. -/
def Runner.Forth (run : Runner P) : Prop :=
  ∀ {deadline : Nat} {network after : Network P} {outcome : Except Error Unit},
    network.Current → run deadline network = some (outcome, after) →
      network.time ≤ after.time ∧ after.Current

variable {run : Runner P} {behaviour : Behaviour P} {network after : Network P}

theorem Op.perform_forth (forth : run.Forth) {op : Op P} {answer : op.Answer}
    (current : network.Current) (performed : op.perform run network = some (answer, after)) :
    network.time ≤ after.time ∧ after.Current := by
  cases quiet : op.isRun with
  | false =>
      rw [perform_idle quiet run] at performed
      obtain ⟨_, effect⟩ := Network.effect_perform False quiet False.elim performed
      exact ⟨Nat.le_of_eq effect.time.symm, effect.current current⟩
  | true =>
      cases op with
      | runUntil deadline => exact forth current performed
      | runFor milliseconds =>
          simp only [perform, Network.runTo] at performed
          cases reach : network.deadlineAfter milliseconds with
          | error error =>
              rw [reach] at performed
              cases performed
              exact ⟨Nat.le_refl _, current⟩
          | ok deadline =>
              rw [reach] at performed
              exact forth current performed
      | runSeconds seconds =>
          simp only [perform, Network.runTo] at performed
          cases reach : network.deadlineAfterSeconds seconds with
          | error error =>
              rw [reach] at performed
              cases performed
              exact ⟨Nat.le_refl _, current⟩
          | ok deadline =>
              rw [reach] at performed
              exact forth current performed
      | _ => cases quiet

theorem Program.exec_forth (forth : run.Forth) {program : Program P α} {value : α}
    (current : network.Current) (executed : program.exec run network = some (value, after)) :
    network.time ≤ after.time ∧ after.Current := by
  induction program generalizing network with
  | pure _ =>
      cases executed
      exact ⟨Nat.le_refl _, current⟩
  | call op next induction =>
      unfold exec at executed
      cases performed : op.perform run network with
      | none => simp [performed] at executed
      | some ended =>
          obtain ⟨answer, middle⟩ := ended
          simp only [performed] at executed
          obtain ⟨first, middleCurrent⟩ := Op.perform_forth forth current performed
          obtain ⟨second, afterCurrent⟩ := induction answer middleCurrent executed
          exact ⟨Nat.le_trans first second, afterCurrent⟩

theorem Program.readings_forth (forth : run.Forth) (program : Program P α)
    (current : network.Current) :
    (∀ reading ∈ program.readings run network, network.time ≤ reading) ∧
      (program.readings run network).Pairwise (· ≤ ·) := by
  induction program generalizing network with
  | pure _ => simp [readings]
  | call op next induction =>
      unfold readings
      cases performed : op.perform run network with
      | none => simp
      | some ended =>
          obtain ⟨answer, middle⟩ := ended
          obtain ⟨first, middleCurrent⟩ := Op.perform_forth forth current performed
          obtain ⟨later, increasing⟩ := induction answer middleCurrent
          have above : ∀ reading ∈ (next answer).readings run middle,
              network.time ≤ reading :=
            fun reading member => Nat.le_trans first (later reading member)
          exact ⟨List.forall_mem_cons.mpr ⟨Nat.le_refl _, above⟩, .cons above increasing⟩

/-! Executing events -/

namespace Network

/-- After an event nothing lies before its instant. Only a task that comes back can be
overdue then, and it does so when its body succeeds. -/
theorem recordReaction_forth {recorder : Recorder P} (records : recorder.Records run)
    (forth : run.Forth) {event : Event P} {reaction : Reaction}
    {outcome : Except Error Unit} (current : network.Current)
    (late : ∀ next, reaction.next? = some next → network.time ≤ next)
    (reacted : (network.recordReaction behaviour recorder event reaction).result =
      some (outcome, after)) :
    after.Beyond network.time ∧ ∀ error, outcome = .error error → after.Current := by
  have beyond := current.beyond (Nat.le_refl _)
  cases reaction with
  | refused _ | dropped | retired =>
      cases reacted
      exact ⟨beyond, fun _ _ => current⟩
  | skipped next =>
      obtain ⟨rfl, later⟩ := beyond.recordRearm reacted late
      exact ⟨later, nofun⟩
  | acted next =>
      simp only [recordReaction, Recording.result_bind, Program.result_record records] at reacted
      cases executed : (event.body behaviour).run.exec run network with
      | none => simp [executed] at reacted
      | some ended =>
          obtain ⟨bodyOutcome, middle⟩ := ended
          simp only [executed] at reacted
          obtain ⟨later, middleCurrent⟩ := Program.exec_forth forth current executed
          have middleBeyond := middleCurrent.beyond later
          cases bodyOutcome with
          | error error =>
              cases reacted
              exact ⟨middleBeyond, fun _ _ => middleCurrent⟩
          | ok _ =>
              obtain ⟨rfl, afterBeyond⟩ := middleBeyond.recordRearm reacted late
              exact ⟨afterBeyond, nofun⟩

theorem dispatch_forth (forth : run.Forth) {event : Event P} {outcome : Except Error Unit}
    (current : network.Current)
    (dispatched : network.dispatch behaviour run network.time event = some (outcome, after)) :
    after.Beyond network.time ∧ ∀ error, outcome = .error error → after.Current := by
  have records : Recorder.Records
      (fun deadline network => ⟨[], run deadline network⟩ : Recorder P) run := fun _ _ => rfl
  have clock := time_countEvent network event (network.reaction behaviour network.time event)
  have counted := current.of_same (queue_countEvent ..) clock
  rw [← result_recordReaction behaviour records] at dispatched
  have reacted := recordReaction_forth records forth counted
    (fun next comes => clock.symm ▸ le_of_reaction comes) dispatched
  rwa [clock] at reacted

theorem execute_forth (forth : run.Forth) (ordered : network.queue.WellFormed)
    {queue : EventQueue (Event P)} {key : EventKey} {event : Event P} {deadline : Nat}
    {outcome : Except Error Unit}
    (popped : network.queue.popDue deadline = some ((key, event), queue))
    (executed : { network with queue := queue }.execute behaviour run key event =
      some (outcome, after)) :
    after.Beyond key.time ∧ ∀ error, outcome = .error error → after.Current := by
  have arrived := current_arrive ordered popped
  unfold execute at executed
  split at executed
  · cases executed
  · rename_i dispatched
    cases executed
    obtain ⟨beyond, -⟩ := dispatch_forth forth arrived dispatched
    exact ⟨beyond, nofun⟩
  · rename_i middle dispatched
    cases executed
    obtain ⟨beyond, failed⟩ := dispatch_forth forth arrived dispatched
    have current : { middle with halted := true }.Current := (failed _ rfl).of_same rfl rfl
    exact ⟨current.beyond beyond.clock, fun _ _ => current⟩

theorem startThen_forth {drain : Runner P}
    (forth : ∀ {deadline : Nat} {network after : Network P} {outcome : Except Error Unit},
      network.Current → network.time ≤ deadline →
        drain deadline network = some (outcome, after) →
          network.time ≤ after.time ∧ after.Current) :
    Runner.Forth (startThen drain) := by
  intro deadline network after outcome current ran
  unfold startThen at ran
  cases started : network.start deadline with
  | error error =>
      simp only [started] at ran
      cases ran
      exact ⟨Nat.le_refl _, current⟩
  | ok begun =>
      simp only [started] at ran
      obtain ⟨-, notPast, rfl⟩ := start_eq_ok started
      have begun : { network with started := true }.Current := current.of_same rfl rfl
      have ended := forth begun notPast ran
      exact ended

theorem drain_forth (fuel : Nat) {deadline floor : Nat} {outcome : Except Error Unit}
    (beyond : network.Beyond floor) (reachable : floor ≤ deadline)
    (drained : drain behaviour fuel deadline network = some (outcome, after)) :
    floor ≤ after.time ∧ after.Current := by
  induction fuel generalizing network after floor deadline outcome with
  | zero => cases drained
  | succ fuel induction =>
      have forth : Runner.Forth (startThen (drain behaviour fuel)) :=
        startThen_forth fun current notPast ran =>
          induction (current.beyond (Nat.le_refl _)) notPast ran
      unfold drain at drained
      cases popped : network.queue.popDue deadline with
      | none =>
          simp only [popped] at drained
          cases drained
          exact ⟨reachable, current_of_idle beyond.ordered popped⟩
      | some taken =>
          obtain ⟨⟨key, event⟩, queue⟩ := taken
          simp only [popped] at drained
          have late : floor ≤ key.time :=
            beyond.pending (key, event) (EventQueue.mem_of_popDue popped)
          cases executed : execute behaviour (startThen (drain behaviour fuel))
              { network with queue := queue } key event with
          | none => simp [executed] at drained
          | some ended =>
              obtain ⟨reached, middle⟩ := ended
              simp only [executed] at drained
              obtain ⟨middleBeyond, failed⟩ := execute_forth forth beyond.ordered popped executed
              cases reached with
              | error error =>
                  cases drained
                  exact ⟨Nat.le_trans late middleBeyond.clock, failed error rfl⟩
              | ok _ => exact induction (middleBeyond.lower late) reachable drained

theorem runUntil_forth (behaviour : Behaviour P) (fuel : Nat) :
    Runner.Forth (runUntil behaviour fuel) :=
  startThen_forth fun current notPast ran =>
    drain_forth fuel (current.beyond (Nat.le_refl _)) notPast ran

end Network

/-! The whole life -/

variable {start stop : Network P} {past : List (Moment P)}

theorem Passes.time_le
    (passes : Passes (Moment.Lawful behaviour fun _ => True) start past stop)
    (vacant : start.queue = .empty) (forward : ∀ moment ∈ past, moment.Forward) :
    ∀ moment ∈ past, moment.before.time ≤ moment.after.time := by
  have punctual : Passes (Moment.Punctual behaviour) start past stop :=
    passes.of_forall_mem fun moment member lawful => ⟨lawful, forward moment member⟩
  have initial : start.Current := .of_timely (.initial vacant)
  refine punctual.forall_mem initial ?_ ?_
  · intro moment lawful current
    exact .of_timely (lawful.timely current.timely)
  · intro moment lawful current
    rcases lawful.takes_or_advances current.ordered current.ahead with
      ⟨key, event, deadline, popped, clock, -⟩ | ⟨-, _, advance⟩
    · rw [clock]
      exact current.ahead (key, event) (EventQueue.mem_of_popDue popped)
    · exact advance.forth

theorem Passes.wellFormed_queue {good : Op P → Prop}
    (passes : Passes (Moment.Lawful behaviour good) start past stop)
    (vacant : start.queue = .empty) : stop.queue.WellFormed :=
  (passes.flow (vacant ▸ EventQueue.wellFormed_empty)).1

theorem Passes.current_of_took {good : Op P → Prop}
    (passes : Passes (Moment.Lawful behaviour good) start past stop)
    (vacant : start.queue = .empty) {moment : Moment P} (member : moment ∈ past)
    {key : EventKey} {event : Event P} {reaction : Reaction}
    (took : moment.happening = .took key event reaction) : moment.after.Current := by
  obtain ⟨lawful, ordered⟩ := passes.ordered vacant moment member
  cases lawful with
  | took popped =>
      exact (Network.current_arrive ordered popped).of_same (Network.queue_countEvent ..)
        (Network.time_countEvent ..)
  | operated | began | rearmed | halted | finished => cases took

/-- A clock is set back only by the run around a body that has come too far, past the next
instant of its task or past the deadline of that run. -/
theorem Program.clock_forth {α : Type} (behaviour : Behaviour P) (config : NetworkConfig)
    (latency : Latency) (genesis : P.Payload) (life : Program P α) (fuel : Nat)
    {history : List (Moment P)}
    (lived : history = (life.record (Network.recordRun behaviour fuel)
      (.new config latency genesis)).history) :
    (life.readings (Network.runUntil behaviour fuel)
      (.new config latency genesis)).Pairwise (· ≤ ·) ∧
    (∀ moment ∈ history, ∀ key event reaction,
      moment.happening = .took key event reaction → ∀ more,
        ((event.body behaviour).run.readings (Network.runUntil behaviour more)
          moment.after).Pairwise (· ≤ ·)) ∧
    (∀ past rest, history = past ++ rest → ∀ (more deadline : Nat) (final : Network P),
      Network.runUntil behaviour more deadline (stateAfter (.new config latency genesis) past) =
        some (.ok (), final) →
      final.time = deadline ∧ final.Ahead) ∧
    ((∀ moment ∈ history, moment.Forward) →
      ∀ moment ∈ history, moment.before.time ≤ moment.after.time) ∧
    (behaviour.Calm → ∀ moment ∈ history, moment.Forward) := by
  subst lived
  have passes := past_passes (List.append_nil
    (life.record (Network.recordRun behaviour fuel) (.new config latency genesis)).history).symm
  have initial : (Network.new config latency genesis : Network P).Current :=
    .of_timely (.initial rfl)
  refine ⟨?_, ?_, ?_, passes.time_le rfl, ?_⟩
  · exact (life.readings_forth (Network.runUntil_forth behaviour fuel) initial).2
  · intro moment member key event reaction took more
    have current := passes.current_of_took rfl member took
    exact ((event.body behaviour).run.readings_forth
      (Network.runUntil_forth behaviour more) current).2
  · intro past rest split more deadline final ran
    obtain ⟨stop, later, ends⟩ :=
      Network.recordRun_obeys (behaviour.all_of_forall fun _ => trivial) more deadline
        (stateAfter (.new config latency genesis) past)
    have result := Network.records_runUntil behaviour more deadline
      (stateAfter (.new config latency genesis) past)
    obtain rfl := ends (.ok ()) final (result.trans ran)
    have ordered := ((past_passes split).append later).wellFormed_queue rfl
    obtain ⟨clock, idle⟩ := Network.runUntil_eq_ok ran
    refine ⟨clock, ?_⟩
    intro entry member
    rw [clock]
    exact Nat.le_of_lt (ordered.popDue_eq_none_iff.mp idle entry member)
  · intro calm
    obtain ⟨stop, punctual, -⟩ := life.life_punctual calm fuel (.new config latency genesis)
    exact fun moment member => (punctual.lawful moment member).forward

/-! A body that goes too far -/

def relay.hasty : Behaviour relay where
  deliver _ _ _ := ExceptT.mk (.pure (.ok ()))
  fire _ _ := ExceptT.mk (.perform (.runFor 20))

def relay.overtaken (kind : Recurrence) (deadline : Nat) :
    Program relay (Except Error Unit) := do
  let _ ← Program.perform (.addNode (.new ⟨0, 0, none⟩ false) ())
  let _ ← Program.perform (.schedule () 0 0 kind)
  Program.perform (.runUntil deadline)

def relay.overtaking (kind : Recurrence) (deadline : Nat) : List (Moment relay) :=
  ((relay.overtaken kind deadline).record (Network.recordRun relay.hasty 9)
    relay.initial).history

/-- The clock as the moments of a life leave it: the run of the task brings it forward, and
the run around that one sets it back to its own deadline and succeeds. -/
theorem relay_clock_set_back :
    (∃ network, (relay.overtaken .oneShot 10).exec (Network.runUntil relay.hasty 9)
      relay.initial = some (.ok (), network) ∧ network.time = 10) ∧
    (relay.overtaking .oneShot 10).map (·.after.time) = [0, 0, 0, 0, 0, 20, 10] ∧
    ¬ ((relay.overtaking .oneShot 10).map (·.after.time)).Pairwise (· ≤ ·) :=
  ⟨⟨_, rfl, rfl⟩, rfl, by decide +kernel⟩

/-- A task that is to come back after five milliseconds does so long overdue. -/
example :
    ((relay.overtaking (.periodic 5) 10).map (·.after.time)).drop 4 =
      [0, 20, 20, 5, 5, 25, 25, 10, 10, 30, 30, 10] := by
  decide +kernel

theorem relay_clock_forth :
    (relay.overtaken .oneShot 30).readings (Network.runUntil relay.hasty 9) relay.initial =
      [0, 0, 0, 30] ∧
    ((relay.overtaken .oneShot 30).readings (Network.runUntil relay.hasty 9)
      relay.initial).Pairwise (· ≤ ·) ∧
    (relay.overtaking .oneShot 30).map (·.after.time) = [0, 0, 0, 0, 0, 20, 30] ∧
    ∀ moment ∈ relay.overtaking .oneShot 30, moment.before.time ≤ moment.after.time := by
  obtain ⟨seen, -, -, goesOn, -⟩ :=
    Program.clock_forth relay.hasty {} (LatencyModel.fixed 2).latency ()
      (relay.overtaken .oneShot 30) 9 rfl
  exact ⟨rfl, seen, rfl, goesOn (by decide +kernel)⟩

end NestedRuns

end Simnet
