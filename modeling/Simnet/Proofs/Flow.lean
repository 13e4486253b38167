import Simnet.Proofs.Passage

namespace Simnet

/-! The flow of events through the queue. What a moment brings into the queue is read
off the queues before and after it; what was there or came in has either been taken off
since or is still pending. -/

section Flow

open scoped List

variable {P : Protocol}

namespace Event

def delivered (event : Event P) : Reaction → List (Parcel P)
  | .acted _ => event.parcel?.toList
  | _ => []

def lost (event : Event P) : Reaction → List (Parcel P)
  | .dropped => event.parcel?.toList
  | _ => []

end Event

namespace Moment

def enqueued (moment : Moment P) : List (EventKey × Event P) :=
  moment.after.queue.since moment.before.queue.enqueued

def taken (moment : Moment P) : List (EventKey × Event P) :=
  match moment.happening with
  | .took key event _ => [(key, event)]
  | _ => []

def sent (moment : Moment P) : List (Parcel P) :=
  parcels moment.enqueued

def delivered (moment : Moment P) : List (Parcel P) :=
  match moment.happening with
  | .took _ event reaction => event.delivered reaction
  | _ => []

def lost (moment : Moment P) : List (Parcel P) :=
  match moment.happening with
  | .took _ event reaction => event.lost reaction
  | _ => []

def KeepsCounts (moment : Moment P) : Prop :=
  match moment.happening with
  | .operated op => op.KeepsCounts moment.before
  | _ => True

end Moment

/-- All events that came into the queue, in the order of the moments. -/
def enqueued (past : List (Moment P)) : List (EventKey × Event P) :=
  past.flatMap Moment.enqueued

def taken (past : List (Moment P)) : List (EventKey × Event P) :=
  past.flatMap Moment.taken

def sent (past : List (Moment P)) : List (Parcel P) :=
  past.flatMap Moment.sent

def delivered (past : List (Moment P)) : List (Parcel P) :=
  past.flatMap Moment.delivered

def lost (past : List (Moment P)) : List (Parcel P) :=
  past.flatMap Moment.lost

section Lists

variable (past later : List (Moment P)) (moment : Moment P)

@[simp] theorem enqueued_append : enqueued (past ++ later) = enqueued past ++ enqueued later :=
  List.flatMap_append

@[simp] theorem enqueued_singleton : enqueued [moment] = moment.enqueued := by
  simp [enqueued]

@[simp] theorem taken_append : taken (past ++ later) = taken past ++ taken later :=
  List.flatMap_append

@[simp] theorem taken_singleton : taken [moment] = moment.taken := by
  simp [taken]

@[simp] theorem sent_append : sent (past ++ later) = sent past ++ sent later :=
  List.flatMap_append

@[simp] theorem sent_singleton : sent [moment] = moment.sent := by
  simp [sent]

@[simp] theorem delivered_append :
    delivered (past ++ later) = delivered past ++ delivered later :=
  List.flatMap_append

@[simp] theorem delivered_singleton : delivered [moment] = moment.delivered := by
  simp [delivered]

@[simp] theorem lost_append : lost (past ++ later) = lost past ++ lost later :=
  List.flatMap_append

@[simp] theorem lost_singleton : lost [moment] = moment.lost := by
  simp [lost]

end Lists

namespace Network

theorem start_eq_ok {network after : Network P} {deadline : Nat}
    (started : network.start deadline = .ok after) :
    network.halted = false ∧ network.time ≤ deadline ∧
      after = { network with started := true } := by
  unfold start at started
  split at started
  · cases started
  · rename_i running
    split at started
    · cases started
    · rename_i notPast
      refine ⟨by simpa using running, by omega, ?_⟩
      split at started
      · rename_i already
        cases started
        rw [← already]
      · split at started
        · cases started
        · cases started
          rfl

@[simp] theorem queue_countEvent (network : Network P) (event : Event P)
    (reaction : Reaction) : (network.countEvent event reaction).queue = network.queue := by
  cases event <;> cases reaction <;> rfl

@[simp] theorem time_countEvent (network : Network P) (event : Event P)
    (reaction : Reaction) : (network.countEvent event reaction).time = network.time := by
  cases event <;> cases reaction <;> rfl

@[simp] theorem overlay_countEvent (network : Network P) (event : Event P)
    (reaction : Reaction) :
    (network.countEvent event reaction).overlay = network.overlay := by
  cases event <;> cases reaction <;> rfl

@[simp] theorem tree_countEvent (network : Network P) (event : Event P)
    (reaction : Reaction) : (network.countEvent event reaction).tree = network.tree := by
  cases event <;> cases reaction <;> rfl

end Network

variable {behaviour : Behaviour P} {good : Op P → Prop} {moment : Moment P}

/-- A moment either takes an event off the queue, or puts some into it. -/
theorem Moment.Lawful.takes_or_brings (lawful : moment.Lawful behaviour good) :
    (∃ (before : Network P) (queue : EventQueue (Event P)) (key : EventKey)
        (event : Event P) (deadline : Nat),
      before.queue.popDue deadline = some ((key, event), queue) ∧
        moment =
          ⟨before,
            .took key event ((before.arrive queue key.time).reaction behaviour key.time event),
            (before.arrive queue key.time).countEvent event
              ((before.arrive queue key.time).reaction behaviour key.time event)⟩) ∨
    (moment.taken = [] ∧ moment.delivered = [] ∧ moment.lost = []) ∧
      ∃ pushes, Network.Intake moment.KeepsCounts moment.before moment.after pushes := by
  cases lawful with
  | @operated before after op answer quiet permitted performed =>
      obtain ⟨pushes, effect⟩ :=
        Network.effect_perform (op.KeepsCounts before) quiet id performed
      exact .inr ⟨⟨rfl, rfl, rfl⟩, pushes, effect.toIntake⟩
  | began started =>
      obtain ⟨-, -, rfl⟩ := Network.start_eq_ok started
      exact .inr ⟨⟨rfl, rfl, rfl⟩, [], .silent rfl (Nat.le_refl _) (.of_counters rfl)
        fun _ => .of_nodes rfl⟩
  | took popped => exact .inl ⟨_, _, _, _, _, popped, rfl⟩
  | rearmed network record next =>
      refine .inr ⟨⟨rfl, rfl, rfl⟩, [(next, .task record)], .single rfl rfl ?_
        (.of_counters rfl) (.of_nodes rfl)⟩
      intro parcel member
      cases member
  | halted network | finished =>
      exact .inr ⟨⟨rfl, rfl, rfl⟩, [], .silent rfl (Nat.le_refl _) (.of_counters rfl)
        fun _ => .of_nodes rfl⟩

theorem Moment.Lawful.flow (lawful : moment.Lawful behaviour good)
    (wellFormed : moment.before.queue.WellFormed) :
    moment.after.queue.WellFormed ∧
      (moment.before.queue.items ++ moment.enqueued).Perm
        (moment.taken ++ moment.after.queue.items) := by
  rcases lawful.takes_or_brings with
    ⟨before, queue, key, event, deadline, popped, rfl⟩ | ⟨⟨nothing, -, -⟩, pushes, intake⟩
  · obtain ⟨ordered, -⟩ := wellFormed.popDue popped
    obtain ⟨items, -, -⟩ := EventQueue.popDue_eq_some_iff.mp popped
    have none := wellFormed.since_popDue popped
    refine ⟨by simpa [Network.arrive] using ordered, ?_⟩
    simp only [Moment.enqueued, Moment.taken, Network.queue_countEvent, Network.arrive]
    rw [none, items, List.append_nil]
    exact .refl _
  · have came := wellFormed.since_pushAll pushes
    rw [← intake.queue] at came
    refine ⟨intake.queue ▸ wellFormed.pushAll pushes, ?_⟩
    rw [nothing, List.nil_append, intake.queue]
    exact (came.append_left _).trans (EventQueue.pushAll_perm _ pushes).symm

variable {start stop : Network P} {past : List (Moment P)}

theorem Passes.flow (passes : Passes (Moment.Lawful behaviour good) start past stop)
    (wellFormed : start.queue.WellFormed) :
    stop.queue.WellFormed ∧
      (start.queue.items ++ enqueued past).Perm (taken past ++ stop.queue.items) := by
  refine passes.preserves (motive := fun earlier network =>
    network.queue.WellFormed ∧ (start.queue.items ++ enqueued earlier).Perm
      (taken earlier ++ network.queue.items)) ⟨wellFormed, by simp [enqueued, taken]⟩ ?_
  rintro earlier moment lawful ⟨ordered, flow⟩
  obtain ⟨laterOrdered, laterFlow⟩ := lawful.flow ordered
  refine ⟨laterOrdered, ?_⟩
  rw [enqueued_append, enqueued_singleton, taken_append, taken_singleton,
    ← List.append_assoc, List.append_assoc (taken earlier)]
  calc (start.queue.items ++ enqueued earlier) ++ moment.enqueued
    _ ~ (taken earlier ++ moment.before.queue.items) ++ moment.enqueued :=
        flow.append_right _
    _ = taken earlier ++ (moment.before.queue.items ++ moment.enqueued) :=
        List.append_assoc ..
    _ ~ taken earlier ++ (moment.taken ++ moment.after.queue.items) :=
        laterFlow.append_left _

theorem Passes.ordered (passes : Passes (Moment.Lawful behaviour good) start past stop)
    (vacant : start.queue = .empty) :
    ∀ moment ∈ past, moment.Lawful behaviour good ∧ moment.before.queue.WellFormed :=
  passes.forall_mem (motive := fun network => network.queue.WellFormed)
    (vacant ▸ EventQueue.wellFormed_empty) (fun _ lawful before => (lawful.flow before).1)
    fun _ lawful ordered => ⟨lawful, ordered⟩

end Flow

end Simnet
