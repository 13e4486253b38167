import Simnet.Proofs.Flow

namespace Simnet

/-! Bodies that do not run the network. While such a body is executed the clock stands
still, so no moment sets it back, and a task comes back no earlier than now. -/

variable {P : Protocol}

/-- No body runs the network. -/
def Behaviour.Calm (behaviour : Behaviour P) : Prop :=
  behaviour.All fun op => op.isRun = false

/-- The moment looks ahead: a task does not come back in the past, and the clock is not
set back. -/
def Moment.Forward (moment : Moment P) : Prop :=
  match moment.happening with
  | .rearmed _ next => moment.before.time ≤ next
  | .finished deadline => moment.before.time ≤ deadline
  | _ => True

instance (moment : Moment P) : Decidable moment.Forward :=
  match moment with
  | ⟨before, .rearmed _ next, _⟩ => inferInstanceAs (Decidable (before.time ≤ next))
  | ⟨before, .finished deadline, _⟩ => inferInstanceAs (Decidable (before.time ≤ deadline))
  | ⟨_, .operated _, _⟩ | ⟨_, .began _, _⟩ | ⟨_, .took _ _ _, _⟩ | ⟨_, .halted, _⟩ =>
      isTrue trivial

structure Moment.Punctual (behaviour : Behaviour P) (moment : Moment P) : Prop where
  lawful : moment.Lawful behaviour fun _ => True
  forward : moment.Forward

structure Moment.Steady (behaviour : Behaviour P) (moment : Moment P) : Prop
    extends Moment.Punctual behaviour moment where
  still : moment.after.time = moment.before.time

section Calm

variable {behaviour : Behaviour P} {start stop : Network P} {past : List (Moment P)}

theorem Passes.time_eq (passes : Passes (Moment.Steady behaviour) start past stop) :
    stop.time = start.time := by
  refine passes.preserves (motive := fun _ network => network.time = start.time) rfl ?_
  intro earlier moment steady same
  rw [steady.still, same]

theorem Recording.Obeys.time_eq {α : Type} {recording : Recording P α}
    (obeys : recording.Obeys (Moment.Steady behaviour) start) {value : α}
    {after : Network P} (result : recording.result = some (value, after)) :
    after.time = start.time := by
  obtain ⟨stop, passes, ends⟩ := obeys
  rw [ends value after result]
  exact passes.time_eq

namespace Network

theorem le_of_nextInstant {kind : Recurrence} {time next : Nat}
    (comes : nextInstant kind time = .ok (some next)) : time ≤ next := by
  unfold nextInstant at comes
  cases period : kind.period? with
  | none => simp [period] at comes
  | some wait =>
      simp only [period] at comes
      cases later : timeAfter time wait with
      | error error => simp [later] at comes
      | ok instant =>
          simp only [later, Except.ok.injEq, Option.some.injEq] at comes
          have reached := (timeAfter_eq_ok_iff.mp later).1
          omega

theorem instant_of_reaction {network : Network P} {event : Event P} {time next : Nat}
    (comes : (network.reaction behaviour time event).next? = some next) :
    ∃ record, event = .task record ∧ nextInstant record.kind time = .ok (some next) := by
  cases event with
  | delivery sender receiver message =>
      simp only [reaction] at comes
      cases found : network.node? receiver with
      | none => simp [found, Reaction.next?] at comes
      | some node =>
          simp only [found] at comes
          split at comes <;> simp [Reaction.next?] at comes
  | task record =>
      refine ⟨record, rfl, ?_⟩
      simp only [reaction] at comes
      cases found : network.node? record.owner with
      | none => simp [found, Reaction.next?] at comes
      | some node =>
          simp only [found] at comes
          split at comes
          · simp [Reaction.next?] at comes
          · cases instant : nextInstant record.kind time with
            | error error => simp [instant, Reaction.next?] at comes
            | ok later =>
                simp only [instant] at comes
                have back : later = some next := by
                  split at comes <;> simpa [Reaction.next?] using comes
                rw [back]

theorem le_of_reaction {network : Network P} {event : Event P} {time next : Nat}
    (comes : (network.reaction behaviour time event).next? = some next) :
    time ≤ next := by
  obtain ⟨record, -, instant⟩ := instant_of_reaction comes
  exact le_of_nextInstant instant

/-! What a calm body leads to -/

theorem body_steady (calm : behaviour.Calm) (recorder : Recorder P) (network : Network P)
    (event : Event P) :
    ((event.body behaviour).run.record recorder network).Obeys
      (Moment.Steady behaviour) network := by
  refine Program.record_obeys ?_ ?_ (calm.body event) network
  · intro before after op answer quiet _ performed
    obtain ⟨_, effect⟩ := effect_perform False quiet False.elim performed
    exact ⟨⟨.operated quiet trivial performed, trivial⟩, effect.time⟩
  · intro op runs quiet
    rw [quiet] at runs
    cases runs

theorem recordRearm_steady {network : Network P} (event : Event P) {next : Option Nat}
    (notPast : ∀ instant, next = some instant → network.time ≤ instant) :
    (network.recordRearm event next).Obeys (Moment.Steady behaviour) network := by
  cases event with
  | delivery _ _ _ => exact Recording.obeys_still _ network
  | task record =>
      cases next with
      | none => exact Recording.obeys_still _ network
      | some instant =>
          exact Recording.obeys_single
            ⟨⟨.rearmed network record instant, notPast instant rfl⟩, rfl⟩

theorem recordReaction_steady (calm : behaviour.Calm) (recorder : Recorder P)
    {network : Network P} (event : Event P) {reaction : Reaction}
    (notPast : ∀ instant, reaction.next? = some instant → network.time ≤ instant) :
    (network.recordReaction behaviour recorder event reaction).Obeys
      (Moment.Steady behaviour) network := by
  cases reaction with
  | refused _ | dropped | retired => exact Recording.obeys_still _ network
  | skipped next => exact recordRearm_steady event notPast
  | acted next =>
      -- The body leaves the clock alone, so the next instant still lies ahead after it.
      have steady := body_steady calm recorder network event
      refine steady.bind ?_
      intro outcome after result
      have same := steady.time_eq result
      cases outcome with
      | error error => exact Recording.obeys_still _ after
      | ok _ =>
          refine recordRearm_steady event ?_
          rw [same]
          exact notPast

theorem recordOutcome_steady (calm : behaviour.Calm) (recorder : Recorder P)
    {network : Network P} (key : EventKey) (event : Event P) {reaction : Reaction}
    (notPast : ∀ instant, reaction.next? = some instant → network.time ≤ instant) :
    ((network.recordReaction behaviour recorder event reaction).bind fun outcome after =>
      after.recordOutcome key event outcome).Obeys (Moment.Steady behaviour) network := by
  refine (recordReaction_steady calm recorder event notPast).bind ?_
  intro outcome after _
  cases outcome with
  | error source => exact Recording.obeys_single ⟨⟨.halted after, trivial⟩, rfl⟩
  | ok _ => exact Recording.obeys_still _ after

theorem recordExecute_punctual (calm : behaviour.Calm) (recorder : Recorder P)
    {network : Network P} {queue : EventQueue (Event P)} {key : EventKey}
    {event : Event P} {deadline : Nat}
    (popped : network.queue.popDue deadline = some ((key, event), queue)) :
    (network.recordExecute behaviour recorder queue key event).Obeys
        (Moment.Punctual behaviour) network ∧
      ∀ outcome after,
        (network.recordExecute behaviour recorder queue key event).result =
          some (outcome, after) → after.time = key.time := by
  have notPast : ∀ instant,
      ((network.arrive queue key.time).reaction behaviour key.time event).next? =
        some instant →
      ((network.arrive queue key.time).countEvent event
        ((network.arrive queue key.time).reaction behaviour key.time event)).time ≤
          instant := by
    intro instant comes
    rw [time_countEvent]
    exact le_of_reaction comes
  have steady := recordOutcome_steady calm recorder key event notPast
  constructor
  · refine (Recording.obeys_single (⟨.took popped, trivial⟩ : Moment.Punctual ..)).bind ?_
    intro _ counted result
    cases result
    exact steady.weaken fun _ still => still.toPunctual
  · intro outcome after result
    rw [recordExecute, Recording.result_bind] at result
    rw [steady.time_eq result, time_countEvent]
    rfl

theorem recordDrain_punctual (calm : behaviour.Calm) (fuel : Nat) {deadline : Nat}
    {network : Network P} (notPast : network.time ≤ deadline) :
    (recordDrain behaviour fuel deadline network).Obeys (Moment.Punctual behaviour)
      network := by
  induction fuel generalizing network with
  | zero => exact Recording.obeys_nothing network
  | succ fuel induction =>
      unfold recordDrain
      cases popped : network.queue.popDue deadline with
      | none => exact Recording.obeys_single ⟨.finished popped, notPast⟩
      | some taken =>
          obtain ⟨⟨key, event⟩, queue⟩ := taken
          obtain ⟨-, -, due⟩ := EventQueue.popDue_eq_some_iff.mp popped
          obtain ⟨obeys, clock⟩ :=
            recordExecute_punctual calm (recordStart (recordDrain behaviour fuel)) popped
          refine obeys.bind ?_
          intro outcome after result
          cases outcome with
          | error error => exact Recording.obeys_still _ after
          | ok _ =>
              refine induction ?_
              rw [clock _ _ result]
              exact due

theorem recordRun_punctual (calm : behaviour.Calm) (fuel : Nat) :
    Recorder.Obeys (recordRun behaviour fuel) (Moment.Punctual behaviour) := by
  intro deadline network
  unfold recordRun recordStart
  cases started : network.start deadline with
  | error error => exact Recording.obeys_still _ network
  | ok after =>
      obtain ⟨-, notPast, rfl⟩ := start_eq_ok started
      refine (Recording.obeys_single (⟨.began started, trivial⟩ : Moment.Punctual ..)).bind ?_
      intro _ middle result
      cases result
      exact recordDrain_punctual calm fuel notPast

end Network

theorem Program.life_punctual {α : Type} (calm : behaviour.Calm) (life : Program P α)
    (fuel : Nat) (network : Network P) :
    (life.record (Network.recordRun behaviour fuel) network).Obeys
      (Moment.Punctual behaviour) network := by
  have all : life.All fun _ => True := life.all_of_forall fun _ => trivial
  refine Program.record_obeys ?_ ?_ all network
  · exact fun quiet _ performed => ⟨.operated quiet trivial performed, trivial⟩
  · exact fun _ _ _ => Network.recordRun_punctual calm fuel

/-! A calm body ends in the same way whatever would run the network. -/

theorem Op.perform_quiet {op : Op P} (quiet : op.isRun = false) (network : Network P) :
    ∃ answer after, ∀ run : Runner P, op.perform run network = some (answer, after) := by
  cases op with
  | runUntil _ | runFor _ | runSeconds _ => cases quiet
  | _ => exact ⟨_, _, fun _ => rfl⟩

structure SameFlags (before after : Network P) : Prop where
  started : after.started = before.started
  halted : after.halted = before.halted

theorem SameFlags.refl (network : Network P) : SameFlags network network := ⟨rfl, rfl⟩

theorem SameFlags.trans {before middle after : Network P} (first : SameFlags before middle)
    (second : SameFlags middle after) : SameFlags before after where
  started := second.started.trans first.started
  halted := second.halted.trans first.halted

theorem Program.exec_quiet {program : Program P α}
    (quiet : program.All fun op => op.isRun = false) (network : Network P) :
    ∃ value after, (∀ run : Runner P, program.exec run network = some (value, after)) ∧
      SameFlags network after := by
  induction program generalizing network with
  | pure value => exact ⟨value, network, fun _ => rfl, .refl network⟩
  | call op next induction =>
      obtain ⟨opQuiet, nextQuiet⟩ := quiet
      obtain ⟨answer, middle, performed⟩ := Op.perform_quiet opQuiet network
      obtain ⟨value, after, executed, flags⟩ := induction answer (nextQuiet answer) middle
      obtain ⟨_, effect⟩ :=
        Network.effect_perform False opQuiet False.elim (performed Op.idle)
      refine ⟨value, after, ?_, .trans ⟨effect.started, effect.halted⟩ flags⟩
      intro run
      simp only [exec, performed run, executed run]

namespace Network

theorem deliver_calm (calm : behaviour.Calm) (network : Network P) (sender receiver : Nat)
    (message : P.Message) :
    ∃ result after, (∀ run : Runner P,
        network.deliver behaviour run sender receiver message = some (result, after)) ∧
      SameFlags network after := by
  unfold deliver
  cases found : network.node? receiver with
  | none => exact ⟨_, _, fun _ => rfl, .refl network⟩
  | some node =>
      cases down : node.info.down with
      | true =>
          simp only [down, if_true]
          exact ⟨_, _, fun _ => rfl, ⟨rfl, rfl⟩⟩
      | false =>
          simp only [down, Bool.false_eq_true, if_false]
          obtain ⟨result, after, executed, flags⟩ :=
            Program.exec_quiet (calm.1 message sender receiver) { network with
              nodes := network.nodes.modify receiver fun node =>
                { node with info := node.info.countReceived (P.size message) }
              counters := { network.counters with
                messagesDelivered := network.counters.messagesDelivered + 1 } }
          exact ⟨result, after, executed, flags.started, flags.halted⟩

theorem sameFlags_rearm (network : Network P) (record : ScheduledTask P)
    (next : Option Nat) : SameFlags network (network.rearm record next) := by
  cases next with
  | none => exact .refl network
  | some time => exact ⟨rfl, rfl⟩

theorem fireTask_calm (calm : behaviour.Calm) (network : Network P) (time : Nat)
    (record : ScheduledTask P) :
    ∃ result after, (∀ run : Runner P,
        network.fireTask behaviour run time record = some (result, after)) ∧
      SameFlags network after := by
  unfold fireTask
  cases found : network.node? record.owner with
  | none => exact ⟨_, _, fun _ => rfl, .refl network⟩
  | some node =>
      dsimp only
      split
      · exact ⟨_, _, fun _ => rfl, .refl network⟩
      · cases instant : nextInstant record.kind time with
        | error error => exact ⟨_, _, fun _ => rfl, .refl network⟩
        | ok next =>
            dsimp only
            split
            · obtain ⟨result, after, executed, flags⟩ :=
                Program.exec_quiet (calm.2 record.task record.owner) { network with
                  counters := { network.counters with
                    tasksFired := network.counters.tasksFired + 1 } }
              cases result with
              | error error =>
                  refine ⟨.error error, after, ?_, flags.started, flags.halted⟩
                  intro run
                  rw [executed run]
              | ok _ =>
                  have rearmed := sameFlags_rearm after record next
                  refine ⟨.ok (), after.rearm record next, ?_,
                    rearmed.started.trans flags.started, rearmed.halted.trans flags.halted⟩
                  intro run
                  rw [executed run]
            · exact ⟨_, _, fun _ => rfl, (sameFlags_rearm _ record next).started,
                (sameFlags_rearm _ record next).halted⟩

theorem dispatch_calm (calm : behaviour.Calm) (network : Network P) (time : Nat)
    (event : Event P) :
    ∃ result after, (∀ run : Runner P,
        network.dispatch behaviour run time event = some (result, after)) ∧
      SameFlags network after := by
  cases event with
  | delivery sender receiver message =>
      exact network.deliver_calm calm sender receiver message
  | task record => exact network.fireTask_calm calm time record

theorem execute_calm (calm : behaviour.Calm) (network : Network P) (key : EventKey)
    (event : Event P) :
    ∃ result after, (∀ run : Runner P,
        network.execute behaviour run key event = some (result, after)) ∧
      ((result = .ok () ∧ SameFlags network after) ∨
        ∃ error, result = .error error ∧ after.halted = true) := by
  obtain ⟨result, after, dispatched, flags⟩ :=
    { network with time := key.time }.dispatch_calm calm key.time event
  unfold execute
  cases result with
  | error source =>
      refine ⟨.error (.aborted key.time event.node key.sequence source),
        { after with halted := true }, ?_, .inr ⟨_, rfl, rfl⟩⟩
      intro run
      rw [dispatched run]
  | ok _ =>
      refine ⟨.ok (), after, ?_, .inl ⟨rfl, flags.started, flags.halted⟩⟩
      intro run
      rw [dispatched run]

end Network

end Calm

end Simnet
