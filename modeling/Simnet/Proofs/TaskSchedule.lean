import Simnet.Proofs.Slicing
import Simnet.Proofs.TaskCourse

namespace Simnet

/-! The schedule of tasks. The visits to a task form a chain from its start on, and a run
that succeeds leaves nothing due behind. So up to its deadline a task has been considered at
just the instants of its recurrence, whatever else happened in between. -/

section TaskSchedule

variable {P : Protocol}

/-- The instants of a recurrence from a start on. -/
def Recurrence.Hits (kind : Recurrence) (start time : Nat) : Prop :=
  match kind.period? with
  | none => time = start
  | some period => ∃ count, time = start + count * period

theorem Recurrence.hits_start (kind : Recurrence) (start : Nat) : kind.Hits start start := by
  unfold Hits
  split
  · rfl
  · exact ⟨0, by simp⟩

theorem Recurrence.hits_once {kind : Recurrence} (once : kind.period? = none) (start time : Nat) :
    kind.Hits start time ↔ time = start := by
  rw [Hits, once]

theorem Recurrence.hits_again {kind : Recurrence} {period : Nat}
    (back : kind.period? = some period) (start time : Nat) :
    kind.Hits start time ↔ time = start ∨ kind.Hits (start + period) time := by
  simp only [Hits, back]
  constructor
  · rintro ⟨count, rfl⟩
    cases count with
    | zero => exact .inl (by simp)
    | succ count => exact .inr ⟨count, by rw [Nat.succ_mul]; omega⟩
  · rintro (rfl | ⟨count, rfl⟩)
    · exact ⟨0, by simp⟩
    · exact ⟨count + 1, by rw [Nat.succ_mul]; omega⟩

theorem Recurrence.le_of_hits {kind : Recurrence} {start time : Nat}
    (hits : kind.Hits start time) : start ≤ time := by
  unfold Hits at hits
  split at hits
  · exact Nat.le_of_eq hits.symm
  · obtain ⟨count, rfl⟩ := hits
    exact Nat.le_add_right ..

/-- Some visits are at just the instants of a recurrence up to a deadline, in their order,
but for those after a visit at which the task retired. -/
structure Kept (kind : Recurrence) (start deadline : Nat) (visits : List (Visit P)) :
    Prop where
  increasing : (visits.map (·.time)).Pairwise (· < ·)
  instants : ∀ time, time ∈ visits.map (·.time) ↔ time ≤ deadline ∧ kind.Hits start time ∧
    ∀ visit ∈ visits, visit.reaction = .retired → time ≤ visit.time

theorem Kept.single {kind : Recurrence} {deadline : Nat} (early : visit.time ≤ deadline)
    (expired : visit.reaction = .retired ∨ kind.period? = none) :
    Kept kind visit.time deadline [visit] where
  increasing := List.pairwise_singleton _ _
  instants := by
    intro time
    rw [List.map_singleton, List.mem_singleton, List.forall_mem_singleton]
    constructor
    · rintro rfl
      exact ⟨early, kind.hits_start visit.time, fun _ => Nat.le_refl _⟩
    · rintro ⟨-, hits, ends⟩
      rcases expired with retired | once
      · exact Nat.le_antisymm (ends retired) (kind.le_of_hits hits)
      · exact (kind.hits_once once visit.time time).mp hits

theorem Kept.cons {kind : Recurrence} {period deadline : Nat} {rest : List (Visit P)}
    (kept : Kept kind (visit.time + period) deadline rest)
    (back : kind.period? = some period) (positive : 0 < period)
    (early : visit.time ≤ deadline) (stays : visit.reaction ≠ .retired) :
    Kept kind visit.time deadline (visit :: rest) := by
  have later : ∀ time ∈ rest.map (·.time), visit.time < time := by
    intro time member
    have := kind.le_of_hits ((kept.instants time).mp member).2.1
    omega
  refine ⟨?_, ?_⟩
  · rw [List.map_cons, List.pairwise_cons]
    exact ⟨later, kept.increasing⟩
  · intro time
    rw [List.map_cons, List.mem_cons, kept.instants, kind.hits_again back visit.time,
      List.forall_mem_cons]
    constructor
    · rintro (rfl | ⟨inTime, hits, ends⟩)
      · refine ⟨early, .inl rfl, fun _ => Nat.le_refl _, ?_⟩
        exact fun other member _ => Nat.le_of_lt (later _ (List.mem_map_of_mem member))
      · exact ⟨inTime, .inr hits, fun retired => absurd retired stays, ends⟩
    · rintro ⟨inTime, rfl | hits, -, ends⟩
      · exact .inl rfl
      · exact .inr ⟨inTime, hits, ends⟩

theorem Course.kept {kind : Recurrence} {deadline : Nat} {visits : List (Visit P)}
    (course : Course (some start) visits due) (positive : kind.period? ≠ some 0)
    (returns : ∀ visit ∈ visits, visit.reaction = .retired ∨ (visit.reaction ≠ .retired ∧
      visit.reaction.next? = kind.period?.map fun period => visit.time + period))
    (reached : ∀ visit ∈ visits, visit.time ≤ deadline)
    (idle : ∀ time, due = some time → deadline < time) : Kept kind start deadline visits := by
  -- The instants from the second visit on are those of the same recurrence, one period later.
  induction visits generalizing start with
  | nil =>
      cases course
      have beyond := idle start rfl
      refine ⟨.nil, ?_⟩
      intro time
      constructor
      · intro member
        cases member
      · rintro ⟨early, hits, -⟩
        have := kind.le_of_hits hits
        omega
  | cons visit rest induction =>
      obtain ⟨now, later⟩ := course
      obtain rfl := Option.some.inj now
      rw [List.forall_mem_cons] at returns reached
      rcases returns.1 with retired | ⟨stays, comes⟩
      · rw [retired] at later
        obtain rfl := later.eq_nil.1
        exact .single reached.1 (.inl retired)
      · rw [comes] at later
        cases back : kind.period? with
        | none =>
            rw [back] at later
            obtain rfl := later.eq_nil.1
            exact .single reached.1 (.inr back)
        | some period =>
            rw [back] at later
            have kept := induction later returns.2 reached.2
            have nonzero : 0 < period := by
              rw [back] at positive
              exact Nat.pos_of_ne_zero fun zero => positive (by rw [zero])
            exact kept.cons back nonzero reached.1 stays

/-! The whole life -/

variable {behaviour : Behaviour P} {network stop : Network P} {past : List (Moment P)}

theorem Network.running_of_runUntil (calm : behaviour.Calm) {fuel deadline : Nat}
    {final : Network P}
    (ran : runUntil behaviour fuel deadline network = some (.ok (), final)) :
    final.halted = false := by
  unfold runUntil startThen at ran
  split at ran
  · cases ran
  · rename_i started
    obtain ⟨running, -, rfl⟩ := start_eq_ok started
    exact (drain_flags calm ran).halted.trans running

theorem Passes.kept (passes : Passes (Moment.Punctual behaviour) network past stop)
    (vacant : network.queue = .empty) (fresh : network.nextTask = 0)
    (orderly : Orderly .between past .between)
    (considers : ∀ visit ∈ visits past, ∃ moment : Moment P,
      moment.Considers behaviour visit.time visit.record visit.reaction)
    (idle : stop.queue.popDue stop.time = none) :
    ∀ entry ∈ registrations past,
      Kept entry.2.kind entry.1 stop.time (visitsTo entry.2.id past) := by
  have lawful := passes.weaken fun _ punctual => punctual.lawful
  have timely := passes.timely vacant
  intro entry member
  obtain ⟨start, record⟩ := entry
  have own : (start, record) ∈ ofTask record.id (registrations past) :=
    List.mem_filter.mpr ⟨member, decide_eq_true rfl⟩
  cases lawful.tracked orderly vacant fresh record.id with
  | unknown unknown =>
      rw [unknown.registered] at own
      cases own
  | @underway first _ due underway =>
      rw [underway.registered, List.mem_singleton] at own
      cases own
      have inPast : ∀ visit ∈ visitsTo record.id past, visit ∈ visits past :=
        fun visit member => (List.mem_filter.mp member).1
      refine underway.course.kept (lawful.positive vacant _ member) ?_ ?_ ?_
      · intro visit member
        obtain ⟨moment, considered⟩ := considers visit (inPast visit member)
        rw [← underway.same visit member]
        exact considered.returns
      · intro visit member
        obtain ⟨taken, inTaken, now⟩ := exists_taken_of_visit (inPast visit member)
        rw [now]
        exact (timely.passed taken inTaken).1
      · intro time isDue
        have pending := underway.pending
        rw [isDue] at pending
        have waits : (time, record) ∈ waiting stop.queue.items := by
          have inside : (time, record) ∈ ofTask record.id (outstanding .between stop) := by
            rw [pending]
            exact List.mem_singleton_self _
          exact (List.mem_filter.mp inside).1
        obtain ⟨item, inItems, rfl⟩ := mem_waiting waits
        exact timely.ordered.popDue_eq_none_iff.mp idle item inItems

/-- Where no body runs the network, a run that succeeds has considered each task at just the
instants of its recurrence, until it retired. -/
theorem Program.tasks_kept {α : Type} {behaviour : Behaviour P} (calm : behaviour.Calm)
    (config : NetworkConfig) (latency : Latency) (genesis : P.Payload) (life : Program P α)
    (deadline fuel : Nat) {whole : Program P (Except Error Unit)}
    (ends : whole = life.bind fun _ => .perform (.runUntil deadline))
    {history : List (Moment P)}
    (lived : history = (whole.record (Network.recordRun behaviour fuel)
      (.new config latency genesis)).history) :
    (∀ moment ∈ history, ∀ task start owner kind id,
      moment.happening = .operated (.schedule task start owner kind) →
      moment.before.schedule task start owner kind = (.ok id, moment.after) →
      (start, ⟨id, owner, kind, task⟩) ∈ registrations history) ∧
    (∀ past rest, history = past ++ rest →
      Counted past (stateAfter (.new config latency genesis) past) ∧
      ∀ id, ((stateAfter (.new config latency genesis) past).pendingOf id).length ≤ 1 ∧
        ((∃ visit ∈ visitsTo id past, visit.reaction = .retired) →
          (stateAfter (.new config latency genesis) past).pendingOf id = [])) ∧
    ∀ final, whole.exec (Network.runUntil behaviour fuel) (.new config latency genesis) =
        some (.ok (), final) →
      (∀ moment ∈ history, ∀ key record reaction,
        moment.happening = .took key (.task record) reaction →
        moment.after.time = key.time ∧ moment.Considers behaviour key.time record reaction) ∧
      final.counters.tasksFired + final.counters.tasksSkipped =
        (visits history).countP (fun visit => visit.reaction ≠ .retired) ∧
      ∀ entry ∈ registrations history,
        Kept entry.2.kind entry.1 deadline (visitsTo entry.2.id history) := by
  have vacant : (Network.new config latency genesis : Network P).queue = .empty := rfl
  have running : (Network.new config latency genesis : Network P).halted = false →
      (.between : Phase P) = .between := fun _ => rfl
  obtain ⟨stop, passes, result⟩ := whole.life_punctual calm fuel (.new config latency genesis)
  obtain ⟨last, orderly, settles⟩ := whole.life_ends calm fuel running
  rw [← lived] at passes orderly
  have lawful := passes.weaken fun _ punctual => punctual.lawful
  refine ⟨?_, ?_, ?_⟩
  · intro moment member task start owner kind id operated scheduled
    obtain ⟨-, ordered⟩ := lawful.ordered vacant moment member
    exact List.mem_flatMap.mpr
      ⟨moment, member, mem_registered_of_schedule ordered operated scheduled⟩
  · intro past rest split
    rw [split] at lawful orderly
    obtain ⟨middle, early, -⟩ := lawful.split
    obtain ⟨phase, turns, -⟩ := orderly.split
    rw [← early.stop_eq]
    refine ⟨?_, fun id => (early.tracked turns vacant rfl id).pendingOf⟩
    exact early.preserves (motive := Counted) ⟨rfl, rfl⟩
      fun _ _ lawful counted => counted.step lawful
  · intro final succeeded
    have recorded := (whole.result_record (Network.records_runUntil behaviour fuel)
      (.new config latency genesis)).trans succeeded
    obtain rfl := result _ _ recorded
    obtain ⟨middle, ran⟩ : ∃ middle,
        Network.runUntil behaviour fuel deadline middle = some (.ok (), final) := by
      rw [ends, exec_bind] at succeeded
      split at succeeded
      · cases succeeded
      · rename_i value middle _
        rw [exec_perform] at succeeded
        exact ⟨middle, succeeded⟩
    obtain ⟨clock, idle⟩ := Network.runUntil_eq_ok ran
    obtain rfl := settles _ _ recorded (Network.running_of_runUntil calm ran)
    have accepted := orderly.accepted fun refused => nomatch refused
    have considers : ∀ moment ∈ history, ∀ key record reaction,
        moment.happening = .took key (.task record) reaction →
        moment.after.time = key.time ∧
          moment.Considers behaviour key.time record reaction := by
      intro moment member key record reaction took
      refine (lawful.ordered vacant moment member).1.considers took ?_
      rintro error rfl
      exact accepted moment member key _ error took
    have visited : ∀ visit ∈ visits history, ∃ moment : Moment P,
        moment.Considers behaviour visit.time visit.record visit.reaction := by
      intro visit member
      obtain ⟨moment, inPast, key, took, now⟩ := exists_moment_of_visit member
      rw [now]
      exact ⟨moment, (considers moment inPast key _ _ took).2⟩
    have counted : Counted history final :=
      lawful.preserves (motive := Counted) ⟨rfl, rfl⟩
        fun _ _ lawful counted => counted.step lawful
    refine ⟨considers, ?_, ?_⟩
    · rw [counted.fired, counted.skipped]
      apply Visit.sum_counts
      intro visit member
      obtain ⟨moment, considered⟩ := visited visit member
      exact considered.counts
    · rw [← clock] at idle ⊢
      exact passes.kept vacant rfl orderly visited idle

/-! A task that skips one instant and retires at another -/

def relay.watchful : Behaviour relay :=
  { relay.behaviour with
    stillEnabled := fun _ network _ => network.time ≠ 3
    keepRunning := fun _ network _ => network.time < 7 }

def relay.watch : Program relay (Except Error Unit) := do
  let _ ← Program.perform (.addNode (.new ⟨0, 0, none⟩ false) ())
  let _ ← Program.perform (P := relay) (.schedule () 1 0 (.conditional 2))
  Program.perform (.runUntil 4)

def relay.watched : Recording relay (Except Error Unit) :=
  (relay.watch.bind fun _ => .perform (.runUntil 9)).record
    (Network.recordRun relay.watchful 5) relay.initial

theorem relay_tasks_kept :
    (visitsTo 0 relay.watched.history).map (fun visit => (visit.time, visit.reaction)) =
      [(1, .acted (some 3)), (3, .skipped (some 5)), (5, .acted (some 7)), (7, .retired)] ∧
    Kept (.conditional 2) 1 9 (visitsTo 0 relay.watched.history) := by
  have calm : relay.watchful.Calm := ⟨relay_calm.1, relay_calm.2⟩
  have kept := Program.tasks_kept calm {} (LatencyModel.fixed 2).latency () relay.watch 9 5
    rfl rfl
  have registered : (1, ⟨0, 0, .conditional 2, ()⟩) ∈
      registrations relay.watched.history := List.mem_cons_self
  obtain ⟨-, -, succeeds⟩ := kept
  exact ⟨rfl, (succeeds _ rfl).2.2 _ registered⟩

end TaskSchedule

end Simnet
