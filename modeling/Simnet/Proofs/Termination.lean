import Mathlib.Data.Multiset.DershowitzManna
import Simnet.Proofs.Bodies

namespace Simnet

/-! Runs come to an end. A body may put any number of events into the queue, so the queue can
grow with every event, but where nothing is enqueued at the current instant each event makes
room for later ones only. Up to a deadline, the times in the queue then descend in the order
of multisets, which is well-founded. Tasks that come back are no exception, because their
periods are positive. -/

section Termination

open scoped List

variable {P : Protocol} {behaviour : Behaviour P} {good : Op P → Prop}

/-! Tasks that come back -/

/-- The tasks cannot hold up the clock: the periods of those that are pending or on their way
back are positive, and one on its way back is due later than now. -/
structure Phase.Moving (phase : Phase P) (network : Network P) : Prop where
  positive : ∀ entry ∈ outstanding phase network, entry.2.kind.period? ≠ some 0
  later : ∀ entry ∈ phase.task, network.time < entry.1 ∧ entry.1 ≤ maxTime

variable {moment : Moment P} {phase next first last : Phase P}
variable {start stop : Network P} {past : List (Moment P)}

theorem Network.timeAfter_of_nextInstant {kind : Recurrence} {time instant : Nat}
    (comes : nextInstant kind time = .ok (some instant)) :
    ∃ period, kind.period? = some period ∧ time + period = instant ∧ instant ≤ maxTime := by
  unfold nextInstant at comes
  split at comes
  · cases comes
  · rename_i period back
    split at comes
    · cases comes
    · rename_i reached
      cases comes
      exact ⟨period, back, timeAfter_eq_ok_iff.mp reached⟩

theorem Network.lt_of_nextInstant {kind : Recurrence} {time instant : Nat}
    (positive : kind.period? ≠ some 0) (comes : nextInstant kind time = .ok (some instant)) :
    time < instant ∧ instant ≤ maxTime := by
  obtain ⟨period, back, rfl, inRange⟩ := timeAfter_of_nextInstant comes
  have nonzero : 0 < period := by
    refine Nat.pos_of_ne_zero ?_
    rintro rfl
    exact positive back
  exact ⟨Nat.lt_add_of_pos_right nonzero, inRange⟩

theorem Phase.Moving.between (moving : phase.Moving start) : Phase.between.Moving start where
  positive entry waits := moving.positive entry (List.mem_append_right phase.task waits)
  later := List.forall_mem_nil _

theorem Moment.Progress.positive (progress : moment.Progress phase next)
    (registered : ∀ entry ∈ moment.registered, entry.2.kind.period? ≠ some 0)
    (positive : ∀ entry ∈ outstanding phase moment.before, entry.2.kind.period? ≠ some 0) :
    ∀ entry ∈ outstanding next moment.after, entry.2.kind.period? ≠ some 0 := by
  cases progress with
  | @visit visit rest _ _ _ due returns =>
      rw [due, List.forall_mem_cons] at positive
      rw [returns, List.forall_mem_append]
      refine ⟨?_, positive.2⟩
      intro entry back
      obtain ⟨time, -, rfl⟩ := Option.map_eq_some_iff.mp (Option.mem_toList.mp back)
      exact positive.1
  | register _ _ _ _ flow =>
      intro entry member
      rcases List.mem_append.mp (flow.mem_iff.mp member) with old | new
      · exact positive entry old
      · exact registered entry new

theorem Moment.Lawful.moving (lawful : moment.Lawful behaviour good)
    (turn : phase.Turn moment.happening next) (ordered : moment.before.queue.WellFormed)
    (moving : phase.Moving moment.before) : next.Moving moment.after := by
  refine ⟨(lawful.progress turn ordered).positive (lawful.positive ordered) moving.positive, ?_⟩
  cases lawful with
  | operated quiet _ performed =>
      obtain ⟨_, effect⟩ := Network.effect_perform False quiet False.elim performed
      cases turn
      rw [effect.time]
      exact moving.later
  | halted network =>
      cases turn
      exact moving.later
  | began | finished | rearmed =>
      cases turn
      exact List.forall_mem_nil _
  | @took before queue key event deadline popped =>
      generalize reacts : (before.arrive queue key.time).reaction behaviour key.time event =
        reaction at turn ⊢
      cases turn with
      | refuses | passes => exact List.forall_mem_nil _
      | @returns _ record _ instant comes =>
          rw [← reacts] at comes
          obtain ⟨items, -, -⟩ := EventQueue.popDue_eq_some_iff.mp popped
          have due : (key.time, record) ∈ outstanding .between before := by
            rw [outstanding, items]
            exact List.mem_cons_self
          obtain ⟨_, same, follows⟩ := Network.instant_of_reaction comes
          cases same
          refine List.forall_mem_singleton.mpr ?_
          rw [Network.time_countEvent]
          exact Network.lt_of_nextInstant (moving.positive _ due) follows

def Moment.PutsOff (moment : Moment P) : Prop :=
  ∀ record instant, moment.happening = .rearmed record instant →
    moment.before.time < instant ∧ instant ≤ maxTime

theorem Passes.moving (passes : Passes (Moment.Lawful behaviour good) start past stop)
    (orderly : Orderly first past last) (ordered : start.queue.WellFormed)
    (moving : first.Moving start) :
    last.Moving stop ∧ ∀ moment ∈ past, moment.PutsOff := by
  have whole : stop.queue.WellFormed ∧ last.Moving stop ∧ ∀ moment ∈ past, moment.PutsOff := by
    refine passes.preserves_orderly (motive := fun earlier phase network =>
      network.queue.WellFormed ∧ phase.Moving network ∧ ∀ moment ∈ earlier, moment.PutsOff)
      orderly ⟨ordered, moving, List.forall_mem_nil _⟩ ?_
    rintro earlier moment phase next lawful turn ⟨ordered, moving, earlierOnes⟩
    refine ⟨(lawful.flow ordered).1, lawful.moving turn ordered moving,
      List.forall_mem_append.mpr ⟨earlierOnes, List.forall_mem_singleton.mpr ?_⟩⟩
    intro record instant rearmed
    rw [rearmed] at turn
    cases turn
    exact moving.later _ (List.mem_singleton_self _)
  exact whole.2

/-! One event -/

def Moment.Defers (moment : Moment P) : Prop :=
  match moment.happening with
  | .operated _ => ∀ entry ∈ moment.enqueued, moment.before.time < entry.1.time
  | _ => True

instance (moment : Moment P) : Decidable moment.Defers :=
  match moment with
  | ⟨before, .operated op, after⟩ => inferInstanceAs (Decidable (∀ entry ∈
      (⟨before, .operated op, after⟩ : Moment P).enqueued, before.time < entry.1.time))
  | ⟨_, .began _, _⟩ | ⟨_, .took _ _ _, _⟩ | ⟨_, .rearmed _ _, _⟩ | ⟨_, .halted, _⟩
  | ⟨_, .finished _, _⟩ => isTrue trivial

theorem Moment.enqueued_of_pushAll (pushes : List (Nat × Event P))
    (ordered : moment.before.queue.WellFormed)
    (queue : moment.after.queue = moment.before.queue.pushAll pushes)
    {entry : EventKey × Event P} (member : entry ∈ moment.enqueued) :
    (entry.1.time, entry.2) ∈ pushes := by
  rw [Moment.enqueued, queue] at member
  exact EventQueue.exists_of_mem_numberFrom ((ordered.since_pushAll pushes).mem_iff.mp member)

theorem Moment.Lawful.enqueues_later (lawful : moment.Lawful behaviour good)
    (ordered : moment.before.queue.WellFormed) (defers : moment.Defers)
    (putsOff : moment.PutsOff) :
    ∀ entry ∈ moment.enqueued, moment.before.time < entry.1.time := by
  intro entry member
  cases lawful with
  | operated _ _ _ => exact defers entry member
  | rearmed network record instant =>
      have pushed :=
        Moment.enqueued_of_pushAll [(instant, .task record)] ordered rfl member
      obtain ⟨due, -⟩ := Prod.mk.inj (List.mem_singleton.mp pushed)
      rw [due]
      exact (putsOff record instant rfl).1
  | began started =>
      obtain ⟨-, -, rfl⟩ := Network.start_eq_ok started
      cases Moment.enqueued_of_pushAll [] ordered rfl member
  | halted | finished => cases Moment.enqueued_of_pushAll [] ordered rfl member
  | took popped =>
      rw [Moment.enqueued, Network.queue_countEvent] at member
      rw [Network.arrive, ordered.since_popDue popped] at member
      cases member

theorem Passes.enqueues_later (passes : Passes (Moment.Steady behaviour) start past stop)
    (ordered : start.queue.WellFormed) (defers : ∀ moment ∈ past, moment.Defers)
    (putsOff : ∀ moment ∈ past, moment.PutsOff) :
    ∀ entry ∈ enqueued past, start.time < entry.1.time := by
  have careful : Passes
      (fun moment => moment.Steady behaviour ∧ moment.Defers ∧ moment.PutsOff) start past stop :=
    passes.of_forall_mem fun moment member steady =>
      ⟨steady, defers moment member, putsOff moment member⟩
  have later : ∀ moment ∈ past, ∀ entry ∈ moment.enqueued, start.time < entry.1.time := by
    refine careful.forall_mem
      (motive := fun network => network.queue.WellFormed ∧ network.time = start.time)
      ⟨ordered, rfl⟩ ?_ ?_
    · rintro moment ⟨steady, -, -⟩ ⟨ordered, same⟩
      exact ⟨(steady.lawful.flow ordered).1, steady.still.trans same⟩
    · rintro moment ⟨steady, defers, putsOff⟩ ⟨ordered, same⟩
      rw [← same]
      exact steady.lawful.enqueues_later ordered defers putsOff
  intro entry member
  obtain ⟨moment, inPast, came⟩ := List.mem_flatMap.mp member
  exact later moment inPast entry came

theorem Program.record_quiet {α : Type} {program : Program P α}
    (quiet : program.All fun op => op.isRun = false) (recorder other : Recorder P)
    (network : Network P) : program.record recorder network = program.record other network := by
  induction program generalizing network with
  | pure value => rfl
  | call op next induction =>
      obtain ⟨opQuiet, nextQuiet⟩ := quiet
      rw [record, record, Op.record_of_quiet opQuiet, Op.record_of_quiet opQuiet]
      congr 1
      funext answer after
      exact induction answer (nextQuiet answer) after

namespace Network

variable {network after : Network P} {queue : EventQueue (Event P)} {key : EventKey}
variable {event : Event P} {deadline : Nat} {recorder : Recorder P} {reaction : Reaction}

def recordTurn (behaviour : Behaviour P) (recorder : Recorder P) (counted : Network P)
    (key : EventKey) (event : Event P) (reaction : Reaction) :
    Recording P (Except Error Unit) :=
  (counted.recordReaction behaviour recorder event reaction).bind fun outcome network =>
    network.recordOutcome key event outcome

theorem taken_recordRearm (network : Network P) (event : Event P) (next : Option Nat) :
    taken (network.recordRearm event next).history = [] := by
  unfold recordRearm
  split <;> rfl

theorem taken_recordReaction (calm : behaviour.Calm) (recorder : Recorder P)
    (network : Network P) (event : Event P) (reaction : Reaction) :
    taken (network.recordReaction behaviour recorder event reaction).history = [] := by
  cases reaction with
  | refused _ | dropped | retired => rfl
  | skipped next => exact network.taken_recordRearm event next
  | acted next =>
      rw [recordReaction, Recording.history_bind_eq, taken_append,
        taken_of_subsides (record_subsides calm recorder network event), List.nil_append]
      split
      · rfl
      · rename_i outcome after _
        cases outcome with
        | error _ => rfl
        | ok _ => exact after.taken_recordRearm event next

theorem taken_recordTurn (calm : behaviour.Calm) (recorder : Recorder P)
    (network : Network P) (key : EventKey) (event : Event P) (reaction : Reaction) :
    taken (network.recordTurn behaviour recorder key event reaction).history = [] := by
  rw [recordTurn, Recording.history_bind_eq, taken_append, taken_recordReaction calm,
    List.nil_append]
  split
  · rfl
  · rename_i outcome _ _
    cases outcome <;> rfl

theorem recordExecute_eq (recorder : Recorder P) (network : Network P)
    (queue : EventQueue (Event P)) (key : EventKey) (event : Event P) :
    network.recordExecute behaviour recorder queue key event =
      let arrived := network.arrive queue key.time
      let reaction := arrived.reaction behaviour key.time event
      let counted := arrived.countEvent event reaction
      let turn := counted.recordTurn behaviour recorder key event reaction
      ⟨⟨network, .took key event reaction, counted⟩ :: turn.history, turn.result⟩ := rfl

theorem taken_recordExecute (calm : behaviour.Calm) (recorder : Recorder P)
    (network : Network P) (queue : EventQueue (Event P)) (key : EventKey) (event : Event P) :
    taken (network.recordExecute behaviour recorder queue key event).history =
      [(key, event)] := by
  rw [recordExecute_eq]
  exact congrArg ((key, event) :: ·) (taken_recordTurn calm recorder _ key event _)

theorem recordTurn_steady (calm : behaviour.Calm) (recorder : Recorder P)
    (network : Network P) (queue : EventQueue (Event P)) (key : EventKey) (event : Event P) :
    let arrived := network.arrive queue key.time
    let reaction := arrived.reaction behaviour key.time event
    let counted := arrived.countEvent event reaction
    (counted.recordTurn behaviour recorder key event reaction).Obeys (Moment.Steady behaviour)
      counted := by
  refine recordOutcome_steady calm recorder key event ?_
  intro instant comes
  rw [time_countEvent]
  exact le_of_reaction comes

/-- The event was replaced in the queue by others that are due later, and nothing holds up
the clock afterwards either. -/
structure Replaces (queue : EventQueue (Event P)) (key : EventKey) (after : Network P) :
    Prop where
  ordered : after.queue.WellFormed
  moving : Phase.between.Moving after
  items : ∃ later, after.queue.items ~ queue.items ++ later ∧
    ∀ entry ∈ later, key.time < entry.1.time

theorem replaces_of_recordExecute (calm : behaviour.Calm) (ordered : network.queue.WellFormed)
    (moving : Phase.between.Moving network)
    (popped : network.queue.popDue deadline = some ((key, event), queue))
    (executed : (network.recordExecute behaviour recorder queue key event).result =
      some (.ok (), after))
    (defers : ∀ moment ∈ (network.recordExecute behaviour recorder queue key event).history,
      moment.Defers) : Replaces queue key after := by
  obtain ⟨stop, passes, ends⟩ := (recordExecute_punctual calm recorder popped).1
  obtain ⟨last, orderly, closes⟩ :=
    recordExecute_ends calm recorder network queue key event
  obtain rfl := ends _ _ executed
  obtain rfl := closes _ _ executed (.inl rfl)
  have lawful := passes.weaken fun _ punctual => punctual.lawful
  obtain ⟨movingAfter, putsOff⟩ := lawful.moving orderly ordered moving
  refine ⟨(lawful.flow ordered).1, movingAfter, ?_⟩
  -- All but the first moment belong to the instant of the event.
  obtain ⟨final, turnPasses, turnEnds⟩ := recordTurn_steady calm recorder network queue key event
  rw [recordExecute_eq] at executed defers putsOff
  obtain rfl := turnEnds _ _ executed
  rw [List.forall_mem_cons] at defers putsOff
  have orderedRest := (ordered.popDue popped).1
  have counted : ((network.arrive queue key.time).countEvent event
      ((network.arrive queue key.time).reaction behaviour key.time event)).queue = queue :=
    queue_countEvent ..
  rw [← counted] at orderedRest
  have later := turnPasses.enqueues_later orderedRest defers.2 putsOff.2
  have flow := ((turnPasses.weaken fun _ steady => steady.lawful).flow orderedRest).2
  rw [taken_recordTurn calm, List.nil_append, counted] at flow
  rw [time_countEvent] at later
  exact ⟨_, flow.symm, later⟩

theorem recordExecute_calm (calm : behaviour.Calm) (recorder other : Recorder P)
    (network : Network P) (queue : EventQueue (Event P)) (key : EventKey) (event : Event P) :
    network.recordExecute behaviour recorder queue key event =
      network.recordExecute behaviour other queue key event := by
  unfold recordExecute recordReaction
  simp only [Program.record_quiet (calm.body event) recorder other]

theorem exists_result (calm : behaviour.Calm) (recorder : Recorder P) (network : Network P)
    (queue : EventQueue (Event P)) (key : EventKey) (event : Event P) :
    ∃ result after, (network.recordExecute behaviour recorder queue key event).result =
      some (result, after) := by
  obtain ⟨result, after, executed, -⟩ :=
    { network with queue := queue }.execute_calm calm key event
  refine ⟨result, after, ?_⟩
  rw [recordExecute_calm calm recorder (recordRun behaviour 0),
    result_recordExecute behaviour (records_runUntil behaviour 0)]
  exact executed _

/-! The descent -/

/-- How far the events of a queue are from the end of a run; those beyond it count for
nothing. -/
def distances (queue : EventQueue (Event P)) (deadline : Nat) : Multiset Nat :=
  queue.items.map fun entry => deadline + 1 - entry.1.time

theorem Replaces.descends (replaces : Replaces queue key after)
    (popped : network.queue.popDue deadline = some ((key, event), queue)) :
    (distances after.queue deadline).IsDershowitzMannaLT (distances network.queue deadline) := by
  obtain ⟨later, items, beyond⟩ := replaces.items
  obtain ⟨before, -, due⟩ := EventQueue.popDue_eq_some_iff.mp popped
  have inTime : key.time ≤ deadline := due
  have others := Multiset.coe_eq_coe.mpr
    (items.map fun entry : EventKey × Event P => deadline + 1 - entry.1.time)
  rw [List.map_append, ← Multiset.coe_add] at others
  refine ⟨_, _, {deadline + 1 - key.time}, Multiset.singleton_ne_zero _, others, ?_, ?_⟩
  · rw [distances, before, List.map_cons, ← Multiset.cons_coe, ← Multiset.singleton_add,
      add_comm]
  · intro distance member
    obtain ⟨entry, inLater, rfl⟩ := List.mem_map.mp (Multiset.mem_coe.mp member)
    have behind := beyond entry inLater
    exact ⟨_, Multiset.mem_singleton_self _, by omega⟩

/-- With more fuel than it takes events, the recording is always the same, and it has a
result. -/
def Settles (recordings : Nat → Recording P (Except Error Unit)) : Prop :=
  ∃ history outcome, ∀ fuel, (taken history).length < fuel →
    recordings fuel = ⟨history, some outcome⟩

theorem Settles.of_succ {recordings : Nat → Recording P (Except Error Unit)}
    {recording : Recording P (Except Error Unit)} {outcome : Outcome P Unit}
    (same : ∀ fuel, recordings (fuel + 1) = recording)
    (returned : recording.result = some outcome) : Settles recordings := by
  refine ⟨recording.history, outcome, fun fuel enough => ?_⟩
  cases fuel with
  | zero => exact absurd enough (Nat.not_lt_zero _)
  | succ fuel => rw [same, ← returned]

section Drain

variable {fuel : Nat}

theorem recordDrain_of_none (popped : network.queue.popDue deadline = none) :
    recordDrain behaviour (fuel + 1) deadline network =
      .single network (.finished deadline) (.ok ()) { network with time := deadline } := by
  rw [recordDrain, popped]

theorem recordDrain_of_error (calm : behaviour.Calm) {error : Error}
    (popped : network.queue.popDue deadline = some ((key, event), queue))
    (ended : (network.recordExecute behaviour recorder queue key event).result =
      some (.error error, after)) :
    recordDrain behaviour (fuel + 1) deadline network =
      ⟨(network.recordExecute behaviour recorder queue key event).history,
        some (.error error, after)⟩ := by
  rw [recordDrain, popped]
  simp only [recordExecute_calm calm _ recorder, Recording.bind, ended, Recording.still,
    List.append_nil]

theorem recordDrain_of_ok (calm : behaviour.Calm)
    (popped : network.queue.popDue deadline = some ((key, event), queue))
    (ended : (network.recordExecute behaviour recorder queue key event).result =
      some (.ok (), after)) :
    recordDrain behaviour (fuel + 1) deadline network =
      ⟨(network.recordExecute behaviour recorder queue key event).history ++
          (recordDrain behaviour fuel deadline after).history,
        (recordDrain behaviour fuel deadline after).result⟩ := by
  rw [recordDrain, popped]
  simp only [recordExecute_calm calm _ recorder, Recording.bind, ended]

theorem recordDrain_extends (calm : behaviour.Calm) {network : Network P}
    {outcome : Outcome P Unit}
    (returned : (recordDrain behaviour fuel deadline network).result = some outcome)
    (more : Nat) :
    recordDrain behaviour (fuel + more) deadline network =
      recordDrain behaviour fuel deadline network := by
  induction fuel generalizing network with
  | zero => cases returned
  | succ fuel induction =>
      rw [Nat.add_right_comm]
      cases popped : network.queue.popDue deadline with
      | none => rw [recordDrain_of_none popped, recordDrain_of_none popped]
      | some found =>
          obtain ⟨⟨key, event⟩, queue⟩ := found
          obtain ⟨result, after, ended⟩ :=
            network.exists_result calm (recordRun behaviour 0) queue key event
          cases result with
          | error error =>
              rw [recordDrain_of_error calm popped ended, recordDrain_of_error calm popped ended]
          | ok _ =>
              rw [recordDrain_of_ok calm popped ended] at returned
              rw [recordDrain_of_ok calm popped ended, recordDrain_of_ok calm popped ended,
                induction returned]

theorem settles_of_ok (calm : behaviour.Calm)
    (popped : network.queue.popDue deadline = some ((key, event), queue))
    (ended : (network.recordExecute behaviour recorder queue key event).result =
      some (.ok (), after))
    (settles : Settles fun fuel => recordDrain behaviour fuel deadline after) :
    Settles fun fuel => recordDrain behaviour fuel deadline network := by
  obtain ⟨history, outcome, settled⟩ := settles
  refine ⟨(network.recordExecute behaviour recorder queue key event).history ++ history, outcome,
    fun fuel enough => ?_⟩
  rw [taken_append, taken_recordExecute calm, List.length_append, List.length_singleton] at enough
  cases fuel with
  | zero => exact absurd enough (Nat.not_lt_zero _)
  | succ fuel =>
      have later : recordDrain behaviour fuel deadline after = ⟨history, some outcome⟩ :=
        settled fuel (by omega)
      dsimp only
      rw [recordDrain_of_ok calm popped ended, later]

theorem recordDrain_settles (calm : behaviour.Calm) {network : Network P}
    (ordered : network.queue.WellFormed) (moving : Phase.between.Moving network)
    (defers : ∀ fuel, ∀ moment ∈ (recordDrain behaviour fuel deadline network).history,
      moment.Defers) :
    Settles fun fuel => recordDrain behaviour fuel deadline network := by
  have wellFounded := Multiset.wellFounded_isDershowitzMannaLT (α := Nat)
  induction descent : distances network.queue deadline
    using wellFounded.induction generalizing network with
  | h _ induction =>
  subst descent
  cases popped : network.queue.popDue deadline with
  | none => exact .of_succ (fun _ => recordDrain_of_none popped) (Recording.result_single ..)
  | some found =>
      obtain ⟨⟨key, event⟩, queue⟩ := found
      obtain ⟨result, after, ended⟩ :=
        network.exists_result calm (recordRun behaviour 0) queue key event
      cases result with
      | error error => exact .of_succ (fun _ => recordDrain_of_error calm popped ended) rfl
      | ok _ =>
          have both := fun fuel => defers (fuel + 1)
          simp only [recordDrain_of_ok calm popped ended, List.forall_mem_append] at both
          have replaces := replaces_of_recordExecute calm ordered moving popped ended (both 0).1
          exact settles_of_ok calm popped ended (induction _ (replaces.descends popped)
            replaces.ordered replaces.moving (fun fuel => (both fuel).2) rfl)

end Drain

section Start

variable {fuel : Nat} {middle : Network P}

theorem recordRun_of_error {error : Error} (refused : network.start deadline = .error error) :
    recordRun behaviour fuel deadline network = .still (.error error) network := by
  rw [recordRun, recordStart, refused]

theorem recordRun_of_ok (started : network.start deadline = .ok middle) :
    recordRun behaviour fuel deadline network =
      ⟨⟨network, .began deadline, middle⟩ :: (recordDrain behaviour fuel deadline middle).history,
        (recordDrain behaviour fuel deadline middle).result⟩ := by
  rw [recordRun, recordStart, started]
  rfl

theorem recordRun_extends (calm : behaviour.Calm) {outcome : Outcome P Unit}
    (returned : (recordRun behaviour fuel deadline network).result = some outcome)
    (more : Nat) :
    recordRun behaviour (fuel + more) deadline network =
      recordRun behaviour fuel deadline network := by
  cases started : network.start deadline with
  | error error => rw [recordRun_of_error started, recordRun_of_error started]
  | ok middle =>
      rw [recordRun_of_ok started] at returned
      rw [recordRun_of_ok started, recordRun_of_ok started, recordDrain_extends calm returned]

theorem recordRun_settles (calm : behaviour.Calm) (ordered : network.queue.WellFormed)
    (moving : Phase.between.Moving network)
    (defers : ∀ fuel, ∀ moment ∈ (recordRun behaviour fuel deadline network).history,
      moment.Defers) :
    Settles fun fuel => recordRun behaviour fuel deadline network := by
  cases started : network.start deadline with
  | error error => exact .of_succ (fun _ => recordRun_of_error started) rfl
  | ok middle =>
      simp only [recordRun_of_ok started, List.forall_mem_cons] at defers
      obtain ⟨-, -, rfl⟩ := start_eq_ok started
      have settles : Settles fun fuel =>
          recordDrain behaviour fuel deadline { network with started := true } :=
        recordDrain_settles calm ordered ⟨moving.positive, moving.later⟩
          fun fuel => (defers fuel).2
      obtain ⟨history, outcome, settled⟩ := settles
      refine ⟨⟨network, .began deadline, { network with started := true }⟩ :: history, outcome,
        fun fuel enough => ?_⟩
      have later : recordDrain behaviour fuel deadline { network with started := true } =
          ⟨history, some outcome⟩ := settled fuel enough
      dsimp only
      rw [recordRun_of_ok started, later]

end Start

/-! Instants out of range -/

section Overrun

variable {moment : Moment P} {source : Error}

theorem recordExecute_of_refused (calm : behaviour.Calm) {head : EventKey} {first : Event P}
    (member : moment ∈
      (network.recordExecute behaviour recorder queue head first).history)
    (refused : moment.happening = .took key event (.refused source)) :
    ∃ after, (network.recordExecute behaviour recorder queue head first).result =
      some (.error (.aborted key.time event.node key.sequence source), after) := by
  rw [recordExecute_eq] at member ⊢
  rcases List.mem_cons.mp member with rfl | later
  · obtain ⟨rfl, rfl, reacts⟩ := Happening.took.inj refused
    dsimp only
    rw [reacts]
    exact ⟨_, rfl⟩
  · have nothing := List.flatMap_eq_nil_iff.mp (taken_recordTurn calm recorder _ head first _)
      moment later
    rw [Moment.taken, refused] at nothing
    cases nothing

theorem recordDrain_of_refused (calm : behaviour.Calm) {fuel : Nat} {network : Network P}
    (member : moment ∈ (recordDrain behaviour fuel deadline network).history)
    (refused : moment.happening = .took key event (.refused source)) :
    ∃ after, (recordDrain behaviour fuel deadline network).result =
      some (.error (.aborted key.time event.node key.sequence source), after) := by
  induction fuel generalizing network with
  | zero => cases member
  | succ fuel induction =>
      cases popped : network.queue.popDue deadline with
      | none =>
          rw [recordDrain, popped] at member
          cases List.mem_singleton.mp member
          cases refused
      | some found =>
          obtain ⟨⟨head, first⟩, queue⟩ := found
          obtain ⟨result, after, ended⟩ :=
            network.exists_result calm (recordRun behaviour 0) queue head first
          cases result with
          | error error =>
              rw [recordDrain_of_error calm popped ended] at member ⊢
              obtain ⟨final, aborts⟩ := recordExecute_of_refused calm member refused
              rw [ended] at aborts
              exact ⟨final, aborts⟩
          | ok _ =>
              rw [recordDrain_of_ok calm popped ended] at member ⊢
              rcases List.mem_append.mp member with now | later
              · obtain ⟨final, aborts⟩ := recordExecute_of_refused calm now refused
                rw [ended] at aborts
                cases aborts
              · exact induction later

theorem recordRun_of_refused (calm : behaviour.Calm) {fuel : Nat}
    (member : moment ∈ (recordRun behaviour fuel deadline network).history)
    (refused : moment.happening = .took key event (.refused source)) :
    ∃ after, (recordRun behaviour fuel deadline network).result =
      some (.error (.aborted key.time event.node key.sequence source), after) := by
  cases started : network.start deadline with
  | error error =>
      rw [recordRun_of_error started] at member
      cases member
  | ok middle =>
      rw [recordRun_of_ok started] at member ⊢
      rcases List.mem_cons.mp member with rfl | later
      · cases refused
      · exact recordDrain_of_refused calm later refused

end Overrun

end Network

theorem Moment.Lawful.refused_of_overrun (lawful : moment.Lawful behaviour good)
    {key : EventKey} {record : ScheduledTask P} {reaction : Reaction} {period : Nat}
    (took : moment.happening = .took key (.task record) reaction)
    (kept : reaction ≠ .retired) (back : record.kind.period? = some period)
    (beyond : maxTime < key.time + period) : ∃ source, reaction = .refused source := by
  by_contra accepted
  rw [not_exists] at accepted
  rcases (lawful.considers took accepted).2.returns with retired | ⟨-, comes⟩
  · exact kept retired
  · cases lawful with
    | @took before queue _ _ _ _ =>
        cases took
        rw [back, Option.map_some] at comes
        obtain ⟨_, same, follows⟩ := Network.instant_of_reaction comes
        cases same
        obtain ⟨_, -, -, inRange⟩ := Network.timeAfter_of_nextInstant follows
        omega
    | operated | began | rearmed | halted | finished => cases took

/-- Where no body runs the network and nothing is enqueued at the current instant, every run
comes to an end, since every task that comes back does so later. -/
theorem Program.runs_end {α : Type} {behaviour : Behaviour P} (calm : behaviour.Calm)
    (config : NetworkConfig) (latency : Latency) (genesis : P.Payload) (life : Program P α)
    (fuel : Nat) {past rest : List (Moment P)}
    (lived : (life.record (Network.recordRun behaviour fuel)
      (.new config latency genesis)).history = past ++ rest)
    (network : Network P) (reached : network = stateAfter (.new config latency genesis) past)
    (deadline : Nat)
    (defers : ∀ fuel, ∀ moment ∈ (Network.recordRun behaviour fuel deadline network).history,
      moment.Defers) :
    (∃ history outcome, ∀ fuel, (taken history).length < fuel →
      Network.recordRun behaviour fuel deadline network = ⟨history, some outcome⟩ ∧
      Network.runUntil behaviour fuel deadline network = some outcome) ∧
    (∀ entry ∈ waiting network.queue.items, entry.2.kind.period? ≠ some 0) ∧
    ∀ fuel, ∀ moment ∈ (Network.recordRun behaviour fuel deadline network).history,
      moment.PutsOff ∧
      ∀ key record reaction period, moment.happening = .took key (.task record) reaction →
        reaction ≠ .retired → record.kind.period? = some period →
        maxTime < key.time + period →
          ∃ source after, reaction = .refused source ∧
            Network.runUntil behaviour fuel deadline network =
              some (.error (.aborted key.time record.owner key.sequence source), after) := by
  have idle : ∀ network : Network P, network.halted = false →
      (.between : Phase P) = .between := fun _ _ => rfl
  have early := past_passes lived
  obtain ⟨final, orderly, -⟩ := life.life_ends calm fuel (idle (.new config latency genesis))
  rw [lived] at orderly
  obtain ⟨phase, turns, -⟩ := orderly.split
  rw [← reached] at early
  have ordered : network.queue.WellFormed := (early.flow EventQueue.wellFormed_empty).1
  obtain ⟨underway, -⟩ := early.moving turns EventQueue.wellFormed_empty
    ⟨List.forall_mem_nil _, List.forall_mem_nil _⟩
  have moving := underway.between
  have records := fun fuel => Network.records_runUntil behaviour fuel deadline network
  refine ⟨?_, moving.positive, ?_⟩
  · obtain ⟨history, outcome, settled⟩ :=
      Network.recordRun_settles calm ordered moving defers
    refine ⟨history, outcome, fun fuel enough => ⟨settled fuel enough, ?_⟩⟩
    rw [← records]
    exact congrArg Recording.result (settled fuel enough)
  · intro fuel moment member
    obtain ⟨stop, passes, -⟩ := Network.recordRun_obeys
      (behaviour.all_of_forall fun _ => trivial) fuel deadline network
    obtain ⟨last, runTurns, -⟩ := Network.recordRun_ends calm fuel deadline (idle network)
    refine ⟨(passes.moving runTurns ordered moving).2 moment member, ?_⟩
    intro key record reaction period took kept back beyond
    obtain ⟨source, rfl⟩ :=
      (passes.lawful moment member).refused_of_overrun took kept back beyond
    obtain ⟨after, aborts⟩ := Network.recordRun_of_refused calm member took
    rw [records] at aborts
    exact ⟨source, after, rfl, aborts⟩

end Termination

namespace relay

def ticking : Program relay (Except Error Nat) := do
  let _ ← Program.perform (.addNode (.new ⟨0, 0, none⟩ false) ())
  let _ ← Program.perform (.addNode (.new ⟨3, 4, none⟩ false) ())
  let _ ← Program.perform (P := relay) (.sendToMany 1 0 0 [1])
  Program.perform (P := relay) (.schedule () 3 0 (.periodic 3))

def ticked : Network relay :=
  stateAfter initial (ticking.record (Network.recordRun behaviour 0) initial).history

theorem ticked_returns :
    ∃ outcome, (Network.recordRun behaviour 4 5 ticked).result = some outcome :=
  Option.isSome_iff_exists.mp (by decide +kernel)

theorem ticked_defers (fuel : Nat) :
    ∀ moment ∈ (Network.recordRun behaviour fuel 5 ticked).history, moment.Defers := by
  have few : ∀ fuel ≤ 4, ∀ moment ∈ (Network.recordRun behaviour fuel 5 ticked).history,
      moment.Defers := by
    decide +kernel
  rcases Nat.le_total fuel 4 with within | beyond
  · exact few fuel within
  · obtain ⟨more, rfl⟩ := Nat.exists_eq_add_of_le beyond
    obtain ⟨outcome, returned⟩ := ticked_returns
    rw [Network.recordRun_extends relay_calm returned]
    exact few 4 (Nat.le_refl 4)

end relay

theorem relay_runs_end :
    ∃ history outcome,
      (∀ fuel, (taken history).length < fuel →
        Network.recordRun relay.behaviour fuel 5 relay.ticked = ⟨history, some outcome⟩ ∧
        Network.runUntil relay.behaviour fuel 5 relay.ticked = some outcome) ∧
      (taken history).length = 3 ∧ outcome.2.time = 5 ∧ outcome.2.pendingEvents = 1 := by
  obtain ⟨⟨history, outcome, settled⟩, -, -⟩ := Program.runs_end relay_calm {}
    (LatencyModel.fixed 2).latency () relay.ticking 0 (List.append_nil _).symm relay.ticked rfl 5
    relay.ticked_defers
  obtain ⟨ending, returned⟩ := relay.ticked_returns
  have whole := (settled (4 + (taken history).length) (by omega)).1
  rw [Network.recordRun_extends relay_calm returned] at whole
  have events :
      (taken (Network.recordRun relay.behaviour 4 5 relay.ticked).history).length = 3 := by
    decide +kernel
  have final : (Network.recordRun relay.behaviour 4 5 relay.ticked).result.map
      (fun ended => (ended.2.time, ended.2.pendingEvents)) = some (5, 1) := by
    decide +kernel
  rw [whole] at events final
  obtain ⟨clock, pending⟩ := Prod.mk.inj (Option.some.inj final)
  exact ⟨history, outcome, settled, events, clock, pending⟩

end Simnet
