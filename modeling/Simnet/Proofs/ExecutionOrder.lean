import Simnet.Proofs.Calm

namespace Simnet

/-! The order of execution. Nothing is ever pushed into the past, and a push gets a
number larger than all before it, so every event that comes in belongs behind all that
were executed. Hence the queue, although it only sorts what it holds at a time, sorts
the whole life of a network. -/

section ExecutionOrder

open scoped List

variable {P : Protocol} {behaviour : Behaviour P}

def Moment.instant? (moment : Moment P) : Option Nat :=
  match moment.happening with
  | .took key _ _ => some key.time
  | .finished deadline => some deadline
  | _ => none

/-- The instant of the last event that was taken off, or the deadline of the last run
that succeeded, whichever came later. -/
def clockAfter (past : List (Moment P)) : Nat :=
  past.foldl (fun clock moment => moment.instant?.getD clock) 0

theorem Moment.Lawful.time_eq {good : Op P → Prop} {moment : Moment P}
    (lawful : moment.Lawful behaviour good) :
    moment.after.time = moment.instant?.getD moment.before.time := by
  cases lawful with
  | operated quiet _ performed =>
      obtain ⟨_, effect⟩ := Network.effect_perform False quiet False.elim performed
      exact effect.time
  | began started =>
      obtain ⟨-, -, rfl⟩ := Network.start_eq_ok started
      rfl
  | took popped => exact Network.time_countEvent ..
  | rearmed | halted | finished => rfl

theorem Passes.time_eq_clockAfter {good : Op P → Prop} {start stop : Network P}
    {past : List (Moment P)} (passes : Passes (Moment.Lawful behaviour good) start past stop)
    (early : start.time = 0) : stop.time = clockAfter past := by
  refine passes.preserves (motive := fun past network => network.time = clockAfter past)
    early ?_
  intro earlier moment lawful same
  rw [lawful.time_eq, same, clockAfter, clockAfter, List.foldl_append]
  rfl

def Network.Ahead (network : Network P) : Prop :=
  ∀ entry ∈ network.queue.items, network.time ≤ entry.1.time

theorem Network.ahead_of_pushAll {before after : Network P} {pushes : List (Nat × Event P)}
    (queue : after.queue = before.queue.pushAll pushes)
    (pending : ∀ entry ∈ before.queue.items, after.time ≤ entry.1.time)
    (coming : ∀ pushed ∈ pushes, after.time ≤ pushed.1) : after.Ahead := by
  intro entry member
  rw [queue, EventQueue.mem_pushAll] at member
  rcases member with old | new
  · exact pending entry old
  · exact coming _ (EventQueue.exists_of_mem_numberFrom new)

/-- What a moment does to the clock and the queue when it takes no event off: it pushes
some events, and neither they nor the pending ones are due before the new time. -/
structure Moment.Advance (moment : Moment P) (pushes : List (Nat × Event P)) : Prop where
  queue : moment.after.queue = moment.before.queue.pushAll pushes
  forth : moment.before.time ≤ moment.after.time
  pending : ∀ entry ∈ moment.before.queue.items, moment.after.time ≤ entry.1.time
  coming : ∀ pushed ∈ pushes, moment.after.time ≤ pushed.1

theorem Moment.Punctual.takes_or_advances {moment : Moment P}
    (punctual : moment.Punctual behaviour) (ordered : moment.before.queue.WellFormed)
    (ahead : moment.before.Ahead) :
    (∃ (key : EventKey) (event : Event P) (deadline : Nat),
      moment.before.queue.popDue deadline = some ((key, event), moment.after.queue) ∧
        moment.after.time = key.time ∧ moment.taken = [(key, event)]) ∨
    (moment.taken = [] ∧ ∃ pushes, moment.Advance pushes) := by
  obtain ⟨lawful, forward⟩ := punctual
  cases lawful with
  | @operated before after op answer quiet _ performed =>
      obtain ⟨pushes, effect⟩ :=
        Network.effect_perform False quiet False.elim performed
      have clock : after.time = before.time := effect.time
      refine .inr ⟨rfl, pushes, effect.queue, Nat.le_of_eq clock.symm, ?_, ?_⟩
      · rw [clock]
        exact ahead
      · rw [clock]
        exact effect.notPast
  | began started =>
      obtain ⟨-, -, rfl⟩ := Network.start_eq_ok started
      exact .inr ⟨rfl, [], rfl, Nat.le_refl _, ahead, by simp⟩
  | @took before queue key event deadline popped =>
      refine .inl ⟨key, event, deadline, ?_, Network.time_countEvent .., rfl⟩
      rw [Network.queue_countEvent]
      exact popped
  | rearmed network record next =>
      refine .inr ⟨rfl, [(next, .task record)], rfl, Nat.le_refl _, ahead, ?_⟩
      intro pushed member
      rw [List.mem_singleton] at member
      subst member
      exact forward
  | halted network => exact .inr ⟨rfl, [], rfl, Nat.le_refl _, ahead, by simp⟩
  | finished idle =>
      have later := ordered.popDue_eq_none_iff.mp idle
      exact .inr ⟨rfl, [], rfl, forward,
        fun entry member => Nat.le_of_lt (later entry member), by simp⟩

/-- All that was executed was executed in the order of the keys, and what is pending
comes behind it. -/
structure Timely (past : List (Moment P)) (network : Network P) : Prop where
  ordered : network.queue.WellFormed
  ahead : network.Ahead
  increasing : (taken past).Pairwise fun first second => first.1.Before second.1
  before : ∀ first ∈ taken past, ∀ entry ∈ network.queue.items, first.1.Before entry.1
  passed : ∀ first ∈ taken past,
    first.1.time ≤ network.time ∧ first.1.sequence < network.queue.enqueued

namespace Timely

theorem initial {network : Network P} (vacant : network.queue = .empty) :
    Timely [] network := by
  constructor
  · rw [vacant]
    exact EventQueue.wellFormed_empty
  · intro entry member
    rw [vacant] at member
    cases member
  · exact .nil
  · simp [taken]
  · simp [taken]

variable {past : List (Moment P)} {moment : Moment P}

theorem take {key : EventKey} {event : Event P} {deadline : Nat}
    (timely : Timely past moment.before)
    (popped : moment.before.queue.popDue deadline =
      some ((key, event), moment.after.queue))
    (clock : moment.after.time = key.time) (took : moment.taken = [(key, event)]) :
    Timely (past ++ [moment]) moment.after := by
  obtain ⟨ordered, first⟩ := timely.ordered.popDue popped
  obtain ⟨items, count, -⟩ := EventQueue.popDue_eq_some_iff.mp popped
  have head := EventQueue.mem_of_popDue popped
  have rest : ∀ entry ∈ moment.after.queue.items, entry ∈ moment.before.queue.items := by
    intro entry member
    rw [items]
    exact List.mem_cons_of_mem _ member
  have now : moment.before.time ≤ key.time := timely.ahead (key, event) head
  constructor
  · exact ordered
  · intro entry member
    rw [clock]
    exact (first entry member).time_le
  · rw [taken_append, taken_singleton, took, List.pairwise_append]
    refine ⟨timely.increasing, List.pairwise_singleton _ _, ?_⟩
    intro earlier member last isLast
    rw [List.mem_singleton] at isLast
    subst isLast
    exact timely.before earlier member (key, event) head
  · intro earlier member entry pending
    rw [taken_append, taken_singleton, took] at member
    rcases List.mem_append.mp member with past | last
    · exact timely.before earlier past entry (rest entry pending)
    · rw [List.mem_singleton] at last
      subst last
      exact first entry pending
  · intro earlier member
    rw [taken_append, taken_singleton, took] at member
    rw [clock, count]
    rcases List.mem_append.mp member with past | last
    · obtain ⟨time, sequence⟩ := timely.passed earlier past
      exact ⟨Nat.le_trans time now, sequence⟩
    · rw [List.mem_singleton] at last
      subst last
      exact ⟨Nat.le_refl _, timely.ordered.numbered (key, event) head⟩

theorem advance {pushes : List (Nat × Event P)} (timely : Timely past moment.before)
    (advance : moment.Advance pushes) (nothing : moment.taken = []) :
    Timely (past ++ [moment]) moment.after := by
  have same : taken (past ++ [moment]) = taken past := by
    rw [taken_append, taken_singleton, nothing, List.append_nil]
  have ahead := Network.ahead_of_pushAll advance.queue advance.pending advance.coming
  constructor
  · rw [advance.queue]
    exact timely.ordered.pushAll pushes
  · exact ahead
  · rw [same]
    exact timely.increasing
  · intro first member entry pending
    rw [same] at member
    have place := pending
    rw [advance.queue, EventQueue.mem_pushAll] at place
    rcases place with old | new
    · exact timely.before first member entry old
    · -- The clock is past all that was executed, and the new number is the largest.
      obtain ⟨time, sequence⟩ := timely.passed first member
      have later := EventQueue.le_sequence_of_mem_numberFrom new
      have due := ahead entry pending
      have forth := advance.forth
      apply EventKey.before_of_time_le
      · omega
      · omega
  · intro first member
    rw [same] at member
    obtain ⟨time, sequence⟩ := timely.passed first member
    have forth := advance.forth
    rw [advance.queue, EventQueue.enqueued_pushAll]
    constructor
    · omega
    · omega

end Timely

theorem Moment.Punctual.timely {past : List (Moment P)} {moment : Moment P}
    (punctual : moment.Punctual behaviour) (timely : Timely past moment.before) :
    Timely (past ++ [moment]) moment.after := by
  rcases punctual.takes_or_advances timely.ordered timely.ahead with
    ⟨key, event, deadline, popped, clock, took⟩ | ⟨nothing, pushes, advance⟩
  · exact timely.take popped clock took
  · exact timely.advance advance nothing

theorem Passes.timely {start stop : Network P} {past : List (Moment P)}
    (passes : Passes (Moment.Punctual behaviour) start past stop)
    (vacant : start.queue = .empty) : Timely past stop :=
  passes.preserves (.initial vacant) fun _ _ punctual timely => punctual.timely timely

/-! The end of a run -/

namespace Network

theorem drain_eq_ok {fuel deadline : Nat} {network final : Network P}
    (drained : drain behaviour fuel deadline network = some (.ok (), final)) :
    final.time = deadline ∧ final.queue.popDue deadline = none := by
  induction fuel generalizing network with
  | zero => cases drained
  | succ fuel induction =>
      unfold drain at drained
      cases popped : network.queue.popDue deadline with
      | none =>
          simp only [popped] at drained
          cases drained
          exact ⟨rfl, popped⟩
      | some taken =>
          obtain ⟨⟨key, event⟩, queue⟩ := taken
          simp only [popped] at drained
          cases executed : execute behaviour (startThen (drain behaviour fuel))
              { network with queue := queue } key event with
          | none => simp [executed] at drained
          | some ended =>
              obtain ⟨outcome, after⟩ := ended
              cases outcome with
              | error error => simp [executed] at drained
              | ok _ =>
                  simp only [executed] at drained
                  exact induction drained

theorem runUntil_eq_ok {fuel deadline : Nat} {network final : Network P}
    (ran : runUntil behaviour fuel deadline network = some (.ok (), final)) :
    final.time = deadline ∧ final.queue.popDue deadline = none := by
  unfold runUntil startThen at ran
  cases started : network.start deadline with
  | error error => simp [started] at ran
  | ok after =>
      simp only [started] at ran
      exact drain_eq_ok ran

end Network

theorem filter_eq_singleton {α β : Type} [DecidableEq β] {key : α → β} {items : List α}
    (distinct : (items.map key).Nodup) {item : α} (member : item ∈ items) :
    items.filter (fun other => key other = key item) = [item] := by
  induction items with
  | nil => cases member
  | cons head tail induction =>
      obtain ⟨new, later⟩ := List.nodup_cons.mp distinct
      rcases List.mem_cons.mp member with rfl | inTail
      · have others : tail.filter (fun other => key other = key item) = [] := by
          rw [List.filter_eq_nil_iff]
          intro other inTail same
          rw [← of_decide_eq_true same] at new
          exact new (List.mem_map_of_mem inTail)
        rw [List.filter_cons_of_pos (by simp), others]
      · have different : key head ≠ key item := by
          intro same
          rw [same] at new
          exact new (List.mem_map_of_mem inTail)
        rw [List.filter_cons_of_neg (by simpa using different)]
        exact induction later inTail

theorem filter_key_eq_singleton {entries : List (EventKey × Event P)}
    (increasing : entries.Pairwise fun first second => first.1.Before second.1)
    {entry : EventKey × Event P} (member : entry ∈ entries) :
    entries.filter (fun other => other.1 = entry.1) = [entry] := by
  have distinct : (entries.map (·.1)).Nodup :=
    List.pairwise_map.mpr (increasing.imp EventKey.Before.ne)
  exact filter_eq_singleton distinct member

theorem Passes.executed_once {start final : Network P} {past : List (Moment P)}
    (passes : Passes (Moment.Punctual behaviour) start past final)
    (vacant : start.queue = .empty) {deadline : Nat}
    (idle : final.queue.popDue deadline = none) {entry : EventKey × Event P}
    (member : entry ∈ enqueued past) (due : entry.1.time ≤ deadline) :
    (taken past).filter (fun other => other.1 = entry.1) = [entry] := by
  have timely := passes.timely vacant
  obtain ⟨-, flow⟩ := (passes.weaken fun _ punctual => punctual.lawful).flow
    (vacant ▸ EventQueue.wellFormed_empty)
  rw [vacant] at flow
  apply filter_key_eq_singleton timely.increasing
  have somewhere : entry ∈ taken past ++ final.queue.items := flow.mem_iff.mp member
  rcases List.mem_append.mp somewhere with executed | pending
  · exact executed
  · have later := timely.ordered.popDue_eq_none_iff.mp idle entry pending
    omega

/-- When no body runs the network, events are executed in the strict order of their keys, and
none is left out of a run that succeeds. -/
theorem Program.executes_in_order {α : Type} {behaviour : Behaviour P}
    (calm : behaviour.Calm) (config : NetworkConfig) (latency : Latency)
    (genesis : P.Payload) (life : Program P α) (fuel : Nat)
    {history : List (Moment P)}
    (lived : history = (life.record (Network.recordRun behaviour fuel)
      (.new config latency genesis)).history) :
    (∀ past rest, history = past ++ rest →
      (stateAfter (.new config latency genesis) past).Ahead ∧
        (stateAfter (.new config latency genesis) past).time = clockAfter past) ∧
    ((taken history).map (·.1)).Pairwise EventKey.Before ∧
    ∀ (answer : α) (network final : Network P) (more deadline : Nat),
      life.exec (Network.runUntil behaviour fuel) (.new config latency genesis) =
        some (answer, network) →
      Network.runUntil behaviour more deadline network = some (.ok (), final) →
      final.time = deadline ∧
        ∀ entry ∈ enqueued
            (history ++ (Network.recordRun behaviour more deadline network).history),
          entry.1.time ≤ deadline →
            (taken (history ++
              (Network.recordRun behaviour more deadline network).history)).filter
                (fun other => other.1 = entry.1) = [entry] := by
  subst lived
  obtain ⟨stop, passes, ends⟩ :=
    life.life_punctual calm fuel (.new config latency genesis)
  refine ⟨?_, ?_, ?_⟩
  · intro past rest split
    rw [split] at passes
    obtain ⟨middle, early, -⟩ := passes.split
    rw [← early.stop_eq]
    have lawful := early.weaken fun _ punctual => punctual.lawful
    exact ⟨(early.timely rfl).ahead, lawful.time_eq_clockAfter rfl⟩
  · rw [List.pairwise_map]
    exact (passes.timely rfl).increasing
  · intro answer network final more deadline lived ran
    have result := life.result_record (Network.records_runUntil behaviour fuel)
      (.new config latency genesis)
    obtain rfl := ends answer network (result.trans lived)
    obtain ⟨last, later, laterEnds⟩ :=
      Network.recordRun_punctual calm more deadline network
    have laterResult := Network.records_runUntil behaviour more deadline network
    obtain rfl := laterEnds (.ok ()) final (laterResult.trans ran)
    obtain ⟨clock, idle⟩ := Network.runUntil_eq_ok ran
    refine ⟨clock, ?_⟩
    intro entry member due
    exact (passes.append later).executed_once rfl idle member due

theorem relay_calm : relay.behaviour.Calm := by
  constructor
  · intro hops sender receiver
    cases hops with
    | zero => trivial
    | succ hops => exact ⟨rfl, fun _ => ⟨rfl, fun _ => trivial⟩⟩
  · intro task owner
    trivial

theorem relay_executes_in_order :
    (taken ((relay.exchange 2 9).record (Network.recordRun relay.behaviour 5)
      relay.initial).history).map (·.1) = [⟨2, 0⟩, ⟨4, 1⟩, ⟨6, 2⟩] ∧
    ((taken ((relay.exchange 2 9).record (Network.recordRun relay.behaviour 5)
      relay.initial).history).map (·.1)).Pairwise EventKey.Before := by
  obtain ⟨-, increasing, -⟩ :=
    Program.executes_in_order relay_calm {} (LatencyModel.fixed 2).latency ()
      (relay.exchange 2 9) 5 rfl
  exact ⟨rfl, increasing⟩

end ExecutionOrder

end Simnet
