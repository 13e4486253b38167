import Simnet.Proofs.Halting
import Simnet.Proofs.TaskCourse

namespace Simnet

/-! Runs that an event aborts, where no body runs the network. The event is the last one
that is taken off, and its key splits all that ever came into the queue: what belongs
before it has been executed, what belongs behind it is still pending. -/

section Abort

open scoped List

variable {P : Protocol} {behaviour : Behaviour P}

/-! The history of a run that fails -/

structure Moment.Fails (behaviour : Behaviour P) (moment : Moment P) (key : EventKey)
    (event : Event P) (source : Error) (final : Network P) : Prop where
  took : ∃ reaction, moment.happening = .took key event reaction
  fails : ∃ (queue : EventQueue (Event P)) (deadline : Nat) (middle : Network P),
    moment.before.queue.popDue deadline = some ((key, event), queue) ∧
    (∀ run : Runner P, (moment.before.arrive queue key.time).dispatch behaviour run key.time
      event = some (.error source, middle)) ∧
    final = { middle with halted := true }

/-- What an event does when it fails, after it was taken off the queue. -/
inductive Moment.Subsides : Moment P → Prop
  | operated {before after : Network P} (op : Op P) : Subsides ⟨before, .operated op, after⟩
  | halted {before after : Network P} : Subsides ⟨before, .halted, after⟩

/-- A history that breaks off in an event. -/
inductive BreaksOff (behaviour : Behaviour P) : List (Moment P) → Error → Network P → Prop
  | intro (earlier : List (Moment P)) {moment : Moment P} {rest : List (Moment P)}
      {key : EventKey} {event : Event P} {source : Error} {final : Network P}
      (fails : moment.Fails behaviour key event source final)
      (subsides : ∀ later ∈ rest, later.Subsides) (clock : final.time = key.time) :
      BreaksOff behaviour (earlier ++ moment :: rest)
        (.aborted key.time event.node key.sequence source) final

theorem BreaksOff.append {history : List (Moment P)} {error : Error} {final : Network P}
    (breaks : BreaksOff behaviour history error final) (earlier : List (Moment P)) :
    BreaksOff behaviour (earlier ++ history) error final := by
  cases breaks with
  | intro between fails subsides clock =>
      rw [← List.append_assoc]
      exact .intro _ fails subsides clock

theorem Moment.Subsides.taken {moment : Moment P} (subsides : moment.Subsides) :
    moment.taken = [] := by
  cases subsides <;> rfl

theorem taken_of_subsides {rest : List (Moment P)}
    (subsides : ∀ later ∈ rest, later.Subsides) : taken rest = [] :=
  List.flatMap_eq_nil_iff.mpr fun later member => (subsides later member).taken

namespace Network

variable {network final : Network P}

theorem record_subsides (calm : behaviour.Calm) (recorder : Recorder P) (network : Network P)
    (event : Event P) :
    ∀ later ∈ ((event.body behaviour).run.record recorder network).history,
      later.Subsides := by
  have obeys : ((event.body behaviour).run.record recorder network).Obeys Moment.Subsides
      network := by
    refine Program.record_obeys ?_ ?_ (calm.body event) network
    · intro before after op answer _ _ _
      exact .operated op
    · intro op runs quiet
      rw [quiet] at runs
      cases runs
  obtain ⟨stop, passes, -⟩ := obeys
  exact passes.lawful

theorem recordRearm_ne_error (event : Event P) (next : Option Nat) (source : Error) :
    (network.recordRearm event next).result ≠ some (.error source, final) := by
  cases event with
  | delivery _ _ _ => nofun
  | task record =>
      rw [result_recordRearm]
      nofun

theorem recordReaction_subsides (calm : behaviour.Calm) (recorder : Recorder P)
    {event : Event P} {reaction : Reaction} {source : Error}
    (failed : (network.recordReaction behaviour recorder event reaction).result =
      some (.error source, final)) :
    ∀ later ∈ (network.recordReaction behaviour recorder event reaction).history,
      later.Subsides := by
  cases reaction with
  | refused error => exact List.forall_mem_nil _
  | dropped | retired => cases failed
  | skipped next => exact absurd failed (recordRearm_ne_error event next source)
  | acted next =>
      rw [recordReaction, Recording.result_bind] at failed
      rw [recordReaction]
      cases ended : ((event.body behaviour).run.record recorder network).result with
      | none =>
          rw [ended] at failed
          cases failed
      | some result =>
          obtain ⟨outcome, after⟩ := result
          simp only [ended] at failed
          cases outcome with
          | ok _ => exact absurd failed (recordRearm_ne_error event next source)
          | error error =>
              -- The error is the answer of the body, after which nothing comes back.
              rw [Recording.history_bind ended]
              refine List.forall_mem_append.mpr ⟨record_subsides calm recorder network event, ?_⟩
              exact List.forall_mem_nil _

theorem recordExecute_breaks (calm : behaviour.Calm) {recorder : Recorder P} {run : Runner P}
    (records : recorder.Records run) {queue : EventQueue (Event P)} {key : EventKey}
    {event : Event P} {deadline : Nat} {error : Error}
    (popped : network.queue.popDue deadline = some ((key, event), queue))
    (failed : (network.recordExecute behaviour recorder queue key event).result =
      some (.error error, final)) :
    BreaksOff behaviour (network.recordExecute behaviour recorder queue key event).history
      error final := by
  have clock := (recordExecute_punctual calm recorder popped).2 _ _ failed
  obtain ⟨outcome, middle, dispatched, -⟩ :=
    (network.arrive queue key.time).dispatch_calm calm key.time event
  have reacts := (result_recordReaction behaviour records (network.arrive queue key.time)
    key.time event).trans (dispatched run)
  rw [recordExecute, Recording.result_bind] at failed
  simp only [Recording.result_single, Recording.result_bind, reacts] at failed
  cases outcome with
  | ok _ => cases failed
  | error source =>
      cases failed
      rw [recordExecute, Recording.history_bind (Recording.result_single ..),
        Recording.history_bind reacts, Recording.history_single, List.singleton_append]
      refine .intro [] ⟨⟨_, rfl⟩, queue, deadline, middle, popped, dispatched, rfl⟩ ?_ clock
      refine List.forall_mem_append.mpr ⟨recordReaction_subsides calm recorder reacts, ?_⟩
      exact List.forall_mem_singleton.mpr .halted

theorem recordDrain_breaks (calm : behaviour.Calm) {fuel deadline : Nat} {error : Error}
    (failed : (recordDrain behaviour fuel deadline network).result =
      some (.error error, final)) :
    BreaksOff behaviour (recordDrain behaviour fuel deadline network).history error
      final := by
  induction fuel generalizing network with
  | zero => cases failed
  | succ fuel induction =>
      unfold recordDrain at failed ⊢
      cases popped : network.queue.popDue deadline with
      | none =>
          rw [popped] at failed
          cases failed
      | some taken =>
          obtain ⟨⟨key, event⟩, queue⟩ := taken
          simp only [popped, Recording.result_bind] at failed
          dsimp only
          cases executed : (network.recordExecute behaviour
              (recordStart (recordDrain behaviour fuel)) queue key event).result with
          | none =>
              rw [executed] at failed
              cases failed
          | some ended =>
              obtain ⟨outcome, after⟩ := ended
              simp only [executed] at failed
              rw [Recording.history_bind executed]
              cases outcome with
              | ok _ => exact (induction failed).append _
              | error other =>
                  cases failed
                  have breaks := recordExecute_breaks calm
                    (records_start (records_drain behaviour fuel)) popped executed
                  simpa [Recording.still] using breaks

theorem isAborted_of_start {deadline : Nat} {error : Error}
    (refused : network.start deadline = .error error) : error.isAborted = false := by
  grind [start, NetworkConfig.validate, Error.isAborted]

theorem recordRun_breaks (calm : behaviour.Calm) {fuel deadline time node sequence : Nat}
    {source : Error}
    (failed : (recordRun behaviour fuel deadline network).result =
      some (.error (.aborted time node sequence source), final)) :
    BreaksOff behaviour (recordRun behaviour fuel deadline network).history
      (.aborted time node sequence source) final := by
  unfold recordRun recordStart at failed ⊢
  cases started : network.start deadline with
  | error error =>
      rw [started] at failed
      cases failed
      cases isAborted_of_start started
  | ok after =>
      simp only [started, Recording.result_bind, Recording.result_single] at failed
      dsimp only
      rw [Recording.history_bind (Recording.result_single ..)]
      exact (recordDrain_breaks calm failed).append _

end Network

/-! The queue that an abort leaves -/

/-- The key splits all that came into the queue. -/
structure Splits (key : EventKey) (past whole : List (Moment P)) (final : Network P) :
    Prop where
  executed : ∀ entry ∈ enqueued whole, entry.1.Before key → entry ∈ taken past
  pending : ∀ entry ∈ enqueued whole, key.Before entry.1 →
    entry ∈ final.queue.items ∧ entry ∉ taken whole
  gone : ∀ entry ∈ final.queue.items, key.Before entry.1

variable {start final : Network P} {past rest : List (Moment P)} {moment : Moment P}
variable {key : EventKey} {event : Event P}

theorem Passes.splits
    (passes : Passes (Moment.Punctual behaviour) start (past ++ moment :: rest) final)
    (vacant : start.queue = .empty) (took : moment.taken = [(key, event)])
    (silent : taken rest = []) : Splits key past (past ++ moment :: rest) final := by
  have timely := passes.timely vacant
  obtain ⟨-, flow⟩ := (passes.weaken fun _ punctual => punctual.lawful).flow
    (vacant ▸ EventQueue.wellFormed_empty)
  have last : taken (past ++ moment :: rest) = taken past ++ [(key, event)] := by
    rw [List.append_cons, taken_append, taken_append, taken_singleton, took, silent,
      List.append_nil]
  -- The event is the last one that was taken off: all others were taken off before it,
  -- and what is pending comes behind all that was taken off.
  have inOrder := timely.increasing
  rw [last, List.pairwise_append] at inOrder
  have earlier : ∀ entry ∈ taken past, entry.1.Before key :=
    fun entry member => inOrder.2.2 entry member _ (List.mem_singleton_self _)
  have later : ∀ entry ∈ final.queue.items, key.Before entry.1 := by
    refine timely.before (key, event) ?_
    rw [last]
    exact List.mem_append_right _ (List.mem_singleton_self _)
  have somewhere : ∀ entry ∈ enqueued (past ++ moment :: rest),
      entry ∈ taken past ∨ entry = (key, event) ∨ entry ∈ final.queue.items := by
    intro entry member
    have place := flow.mem_iff.mp (List.mem_append_right start.queue.items member)
    rw [last] at place
    simpa [or_assoc] using place
  constructor
  · intro entry member before
    rcases somewhere entry member with executed | rfl | pending
    · exact executed
    · exact absurd before (EventKey.Before.irrefl key)
    · exact absurd before (later entry pending).asymm
  · intro entry member behind
    have unexecuted : entry ∉ taken (past ++ moment :: rest) := by
      rw [last]
      intro executed
      rcases List.mem_append.mp executed with before | same
      · exact behind.asymm (earlier entry before)
      · obtain rfl := List.mem_singleton.mp same
        exact EventKey.Before.irrefl key behind
    refine ⟨?_, unexecuted⟩
    rcases somewhere entry member with executed | rfl | pending
    · exact absurd (earlier entry executed) behind.asymm
    · exact absurd behind (EventKey.Before.irrefl key)
    · exact pending
  · exact later

/-! The task that fails -/

/-- The number is that of a task that is no longer pending. -/
structure Network.Spent (id : Nat) (network : Network P) : Prop where
  known : id < network.nextTask
  vacant : network.pendingOf id = []

variable {good : Op P → Prop} {phase : Phase P} {id : Nat}

theorem Moment.Lawful.spent_of_took (lawful : moment.Lawful behaviour good)
    {record : ScheduledTask P} {reaction : Reaction}
    (took : moment.happening = .took key (.task record) reaction)
    (tracked : Tracked record.id past phase moment.before) :
    moment.after.Spent record.id := by
  cases lawful with
  | @took before queue _ event deadline popped =>
      cases took
      obtain ⟨items, -, -⟩ := EventQueue.popDue_eq_some_iff.mp popped
      have head : before.pendingOf record.id =
          (key.time, record) :: ofTask record.id (waiting queue.items) := by
        rw [Network.pendingOf, items]
        exact (ofTask_cons _ _).trans (by rw [if_pos rfl]; rfl)
      constructor
      · rw [Network.nextTask_countEvent]
        cases tracked with
        | underway underway => exact underway.earlier
        | unknown unknown =>
            have none := unknown.pending
            rw [outstanding, ofTask_append, List.append_eq_nil_iff] at none
            rw [Network.pendingOf, none.2] at head
            cases head
      · -- The task was pending once, at the head of the queue.
        have alone := tracked.pendingOf.1
        rw [head, List.length_cons] at alone
        rw [Network.pendingOf, Network.queue_countEvent]
        exact List.eq_nil_of_length_eq_zero (by simpa [Network.arrive] using alone)
  | operated | began | rearmed | halted | finished => cases took

theorem Moment.Lawful.spent_of_subsides (lawful : moment.Lawful behaviour good)
    (subsides : moment.Subsides) (spent : moment.before.Spent id) :
    moment.after.Spent id := by
  cases lawful with
  | @operated before after op answer quiet _ performed =>
      obtain ⟨pushes, enrols⟩ := Network.enrols_perform quiet performed
      have old : id < before.nextTask := spent.known
      constructor
      · rw [enrols.next]
        omega
      · have ids : (tasks pushes).map (·.2.id) ~ List.range' before.nextTask
            (tasks pushes).length := by rw [enrols.ids]
        have none : ofTask id (tasks pushes) = [] := by
          apply (ofTask_registered ids).elim And.right
          rintro ⟨new, -⟩
          omega
        have flow : after.pendingOf id ~ before.pendingOf id ++ ofTask id (tasks pushes) := by
          rw [Network.pendingOf, enrols.queue, Network.pendingOf, ← ofTask_append]
          exact (waiting_pushAll before.queue pushes).filter _
        rw [none, spent.vacant] at flow
        exact List.perm_nil.mp flow
  | halted network => exact ⟨spent.known, spent.vacant⟩
  | began | took | rearmed | finished => cases subsides

theorem Passes.spent {stop : Network P}
    (passes : Passes (Moment.Lawful behaviour good) start rest stop)
    (subsides : ∀ later ∈ rest, later.Subsides) (spent : start.Spent id) :
    stop.Spent id := by
  have both : Passes (fun later => later.Lawful behaviour good ∧ later.Subsides) start rest
      stop := passes.of_forall_mem fun later member lawful => ⟨lawful, subsides later member⟩
  exact both.preserves (motive := fun _ network => network.Spent id) spent
    fun _ _ law spent => law.1.spent_of_subsides law.2 spent

/-! Whole lives -/

/-- What a call leaves that aborts in the event of the moment. -/
structure Aborted (behaviour : Behaviour P) (past : List (Moment P)) (moment : Moment P)
    (rest : List (Moment P)) (key : EventKey) (event : Event P) (source : Error)
    (final : Network P) : Prop where
  fails : moment.Fails behaviour key event source final
  splits : Splits key past (past ++ moment :: rest) final
  spent : ∀ record, event = .task record → final.pendingOf record.id = []
  clock : final.time = key.time

theorem Passes.aborted {last : Phase P} {source : Error}
    (passes : Passes (Moment.Punctual behaviour) start (past ++ moment :: rest) final)
    (orderly : Orderly .between (past ++ moment :: rest) last)
    (vacant : start.queue = .empty) (fresh : start.nextTask = 0)
    (fails : moment.Fails behaviour key event source final)
    (subsides : ∀ later ∈ rest, later.Subsides) (clock : final.time = key.time) :
    Aborted behaviour past moment rest key event source final := by
  obtain ⟨reaction, took⟩ := fails.took
  have taken : moment.taken = [(key, event)] := by rw [Moment.taken, took]
  refine ⟨fails, passes.splits vacant taken (taken_of_subsides subsides), ?_, clock⟩
  rintro record rfl
  obtain ⟨middle, early, late⟩ := (passes.weaken fun _ punctual => punctual.lawful).split
  obtain ⟨rfl, lawful, later⟩ := late
  obtain ⟨phase, turns, -⟩ := orderly.split
  have spent := lawful.spent_of_took took (early.tracked turns vacant fresh record.id)
  exact (later.spent subsides spent).vacant

/-- A call that aborts leaves the network as its failing event left it, and nothing is executed
from then on. Only an abort halts a network. -/
theorem Program.aborts_precisely {α : Type} {behaviour : Behaviour P} (calm : behaviour.Calm)
    (config : NetworkConfig) (latency : Latency) (genesis : P.Payload) (life : Program P α)
    (fuel : Nat) :
    (∀ answer network more deadline time node sequence source final,
      life.exec (Network.runUntil behaviour fuel) (.new config latency genesis) =
        some (answer, network) →
      Network.runUntil behaviour more deadline network =
        some (.error (.aborted time node sequence source), final) →
      (∃ earlier moment rest event,
        (Network.recordRun behaviour more deadline network).history =
          earlier ++ moment :: rest ∧
        event.node = node ∧
        Aborted behaviour ((life.record (Network.recordRun behaviour fuel)
          (.new config latency genesis)).history ++ earlier) moment rest ⟨time, sequence⟩
          event source final) ∧
      final.Over behaviour) ∧
    ∀ earlier later,
      life.failures (Network.runUntil behaviour fuel) (.new config latency genesis) =
        earlier ++ .halted :: later →
      ∃ error ∈ earlier, error.isAborted = true := by
  refine ⟨?_, fun _ _ => life.failures_running calm fuel rfl⟩
  intro answer network more deadline time node sequence source final lived ran
  have result := (life.result_record (Network.records_runUntil behaviour fuel)
    (.new config latency genesis)).trans lived
  have callResult := (Network.records_runUntil behaviour more deadline network).trans ran
  obtain ⟨stop, passes, ends⟩ := life.life_punctual calm fuel (.new config latency genesis)
  obtain rfl := ends _ _ result
  obtain ⟨after, callPasses, callEnds⟩ :=
    Network.recordRun_punctual calm more deadline network
  obtain rfl := callEnds _ _ callResult
  have running : (Network.new config latency genesis : Network P).halted = false →
      (.between : Phase P) = .between := fun _ => rfl
  obtain ⟨phase, orderly, settles⟩ := life.life_ends calm fuel running
  obtain ⟨last, callOrderly, -⟩ := Network.recordRun_ends calm more deadline
    (settles _ _ result)
  have breaks := Network.recordRun_breaks calm callResult
  generalize (Network.recordRun behaviour more deadline network).history = call
    at callPasses callOrderly breaks ⊢
  cases breaks with
  | @intro earlier moment rest key event source _ fails subsides clock =>
      have whole := passes.append callPasses
      have turns := orderly.append callOrderly
      rw [← List.append_assoc] at whole turns
      refine ⟨⟨earlier, moment, rest, event, rfl, rfl,
        whole.aborted turns rfl rfl fails subsides clock⟩, ?_⟩
      obtain ⟨queue, _, middle, -, -, rfl⟩ := fails.fails
      exact Network.over_of_halted behaviour rfl

/-! A task that sends a message and fails with the next -/

def relay.stray : Behaviour relay :=
  { relay.behaviour with
    fire := fun _ owner => do
      let network ← Body.read
      ExceptT.mk (Program.perform (P := relay) (.sendToMany 0 network.time owner [0]))
      ExceptT.mk (Program.perform (P := relay) (.sendToMany 0 network.time owner [7])) }

def relay.straying : Program relay (Except Error Nat) := do
  let _ ← Program.perform (.addNode (.new ⟨0, 0, none⟩ false) ())
  let _ ← Program.perform (.addNode (.new ⟨3, 4, none⟩ false) ())
  let _ ← Program.perform (P := relay) (.sendToMany 1 0 0 [1])
  Program.perform (P := relay) (.schedule () 3 1 (.periodic 4))

def relay.persisting : Program relay (Except Error Unit) := do
  let _ ← relay.straying
  let _ ← Program.perform (.runUntil 9)
  Program.perform (.runUntil 10)

def relay.astray : Network relay :=
  stateAfter relay.initial
    (relay.straying.record (Network.recordRun relay.stray 5) relay.initial).history

theorem relay_stray_calm : relay.stray.Calm := by
  refine ⟨relay_calm.1, ?_⟩
  intro task owner
  refine ⟨rfl, fun network => ⟨rfl, ?_⟩⟩
  intro sent
  cases sent with
  | error error => trivial
  | ok _ => exact ⟨rfl, fun _ => trivial⟩

theorem relay_aborts_precisely :
    ∃ final, Network.runUntil relay.stray 5 9 relay.astray =
        some (.error (.aborted 3 1 1 (.unknownNode 7)), final) ∧
      final.time = 3 ∧
      (∀ entry ∈ final.queue.items, EventKey.Before ⟨3, 1⟩ entry.1) ∧
      final.queue.items.map (·.1) = [⟨4, 2⟩, ⟨5, 3⟩] ∧
      final.Over relay.stray ∧
      relay.persisting.failures (Network.runUntil relay.stray 5) relay.initial =
        [.aborted 3 1 1 (.unknownNode 7), .halted] ∧
      ∃ error ∈ [Error.aborted 3 1 1 (.unknownNode 7)], error.isAborted = true := by
  obtain ⟨precise, -⟩ := Program.aborts_precisely relay_stray_calm {}
    (LatencyModel.fixed 2).latency () relay.straying 5
  obtain ⟨-, before⟩ := Program.aborts_precisely relay_stray_calm {}
    (LatencyModel.fixed 2).latency () relay.persisting 5
  have ran : Network.runUntil relay.stray 5 9 relay.astray =
      some (.error (.aborted 3 1 1 (.unknownNode 7)), stateAfter relay.astray
        (Network.recordRun relay.stray 5 9 relay.astray).history) := rfl
  obtain ⟨⟨earlier, moment, rest, event, -, -, aborted⟩, ended⟩ :=
    precise (.ok 0) relay.astray 5 9 3 1 1 (.unknownNode 7) _ rfl ran
  exact ⟨_, ran, aborted.clock, aborted.splits.gone, rfl, ended, rfl, before _ [] rfl⟩

end Abort

end Simnet
