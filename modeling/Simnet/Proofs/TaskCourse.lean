import Simnet.Proofs.ExecutionOrder
import Simnet.Proofs.Visits

namespace Simnet

/-! The course of a task. Every task is registered once, under a number of its own. From
then on it is pending at one instant at most, and each visit is at the instant to which
the one before it put the task off. -/

section TaskCourse

open scoped List

variable {P : Protocol}

def Moment.registered (moment : Moment P) : List (Nat × ScheduledTask P) :=
  match moment.happening with
  | .operated _ => waiting moment.enqueued
  | _ => []

def registrations (past : List (Moment P)) : List (Nat × ScheduledTask P) :=
  past.flatMap Moment.registered

def ofTask (id : Nat) (entries : List (Nat × ScheduledTask P)) :
    List (Nat × ScheduledTask P) :=
  entries.filter fun entry => entry.2.id = id

def Phase.task : Phase P → List (Nat × ScheduledTask P)
  | returning record next => [(next, record)]
  | _ => []

/-- The tasks that are pending or on their way back into the queue. -/
def outstanding (phase : Phase P) (network : Network P) : List (Nat × ScheduledTask P) :=
  phase.task ++ waiting network.queue.items

section Lists

variable (past : List (Moment P)) {moment : Moment P} {id : Nat}

@[simp] theorem registrations_append :
    registrations (past ++ [moment]) = registrations past ++ moment.registered := by
  simp [registrations]

theorem ofTask_cons (entry : Nat × ScheduledTask P) (rest : List (Nat × ScheduledTask P)) :
    ofTask id (entry :: rest) = (if entry.2.id = id then [entry] else []) ++ ofTask id rest := by
  by_cases own : entry.2.id = id
  · rw [if_pos own, ofTask, List.filter_cons_of_pos (by simpa using own)]
    rfl
  · rw [if_neg own, ofTask, List.filter_cons_of_neg (by simpa using own)]
    rfl

@[simp] theorem ofTask_append (first second : List (Nat × ScheduledTask P)) :
    ofTask id (first ++ second) = ofTask id first ++ ofTask id second :=
  List.filter_append ..

end Lists

/-! One moment -/

/-- What a moment does to the tasks: it considers the first of them, or it registers some
under the next numbers. -/
inductive Moment.Progress (moment : Moment P) (phase next : Phase P) : Prop
  | visit {visit : Visit P} {rest : List (Nat × ScheduledTask P)}
      (considered : moment.visit? = some visit) (nothing : moment.registered = [])
      (numbers : moment.after.nextTask = moment.before.nextTask)
      (due : outstanding phase moment.before = (visit.time, visit.record) :: rest)
      (returns : outstanding next moment.after =
        (visit.reaction.next?.map fun time => (time, visit.record)).toList ++ rest) :
      Progress moment phase next
  | register (count : Nat) (silent : moment.visit? = none)
      (ids : moment.registered.map (·.2.id) ~ List.range' moment.before.nextTask count)
      (numbers : moment.after.nextTask = moment.before.nextTask + count)
      (flow : outstanding next moment.after ~
        outstanding phase moment.before ++ moment.registered) :
      Progress moment phase next

variable {behaviour : Behaviour P} {good : Op P → Prop} {moment : Moment P}
variable {phase next : Phase P}

theorem Moment.Progress.of_same (silent : moment.visit? = none)
    (nothing : moment.registered = [])
    (numbers : moment.after.nextTask = moment.before.nextTask)
    (flow : outstanding next moment.after ~ outstanding phase moment.before) :
    moment.Progress phase next := by
  refine .register 0 silent ?_ numbers ?_
  · rw [nothing]
    exact .nil
  · rw [nothing, List.append_nil]
    exact flow

@[simp] theorem Network.nextTask_countEvent (network : Network P) (event : Event P)
    (reaction : Reaction) :
    (network.countEvent event reaction).nextTask = network.nextTask := by
  cases event <;> cases reaction <;> rfl

theorem Phase.Turn.task_eq {key : EventKey} {record : ScheduledTask P} {reaction : Reaction}
    (turn : phase.Turn (.took key (.task record) reaction) next) :
    phase = .between ∧ next.task =
      (reaction.next?.map fun time => (time, record)).toList := by
  cases turn with
  | refuses => exact ⟨rfl, rfl⟩
  | returns _ _ comes =>
      rw [comes]
      exact ⟨rfl, rfl⟩
  | passes _ _ _ leaves =>
      rw [leaves]
      exact ⟨rfl, rfl⟩

theorem Phase.Turn.task_delivery {key : EventKey} {sender receiver : Nat}
    {message : P.Message} {reaction : Reaction}
    (turn : phase.Turn (.took key (.delivery sender receiver message) reaction) next) :
    phase.task = [] ∧ next.task = [] := by
  cases turn with
  | refuses | passes => exact ⟨rfl, rfl⟩

theorem Moment.Lawful.progress (lawful : moment.Lawful behaviour good)
    (turn : phase.Turn moment.happening next) (ordered : moment.before.queue.WellFormed) :
    moment.Progress phase next := by
  cases lawful with
  | @operated before after op answer quiet _ performed =>
      obtain ⟨pushes, enrols⟩ := Network.enrols_perform quiet performed
      cases turn
      have registers : Moment.registered ⟨before, .operated op, after⟩ ~ tasks pushes :=
        enrols.registers ordered
      refine .register (tasks pushes).length rfl ?_ enrols.next ?_
      · rw [← enrols.ids]
        exact registers.map _
      · calc outstanding phase after
          _ ~ phase.task ++ (waiting before.queue.items ++ tasks pushes) := by
              rw [outstanding, enrols.queue]
              exact (waiting_pushAll before.queue pushes).append_left _
          _ = outstanding phase before ++ tasks pushes := (List.append_assoc ..).symm
          _ ~ _ := registers.symm.append_left _
  | began started =>
      obtain ⟨-, -, rfl⟩ := Network.start_eq_ok started
      cases turn
      exact .of_same rfl rfl rfl (.refl _)
  | @took before queue key event deadline popped =>
      obtain ⟨items, -, -⟩ := EventQueue.popDue_eq_some_iff.mp popped
      cases event with
      | task record =>
          obtain ⟨rfl, returns⟩ := turn.task_eq
          have due : outstanding .between before =
              (key.time, record) :: waiting queue.items := by
            rw [outstanding, items]
            rfl
          refine .visit rfl rfl (Network.nextTask_countEvent ..) due ?_
          rw [outstanding, returns, Network.queue_countEvent]
          rfl
      | delivery sender receiver message =>
          refine .of_same rfl rfl (Network.nextTask_countEvent ..) ?_
          have same : waiting before.queue.items = waiting queue.items := by
            rw [items]
            rfl
          rw [outstanding, outstanding, turn.task_delivery.1, turn.task_delivery.2, same,
            Network.queue_countEvent]
          exact .refl _
  | rearmed network record time =>
      cases turn
      refine .of_same rfl rfl rfl ?_
      have pushed := waiting_pushAll network.queue [(time, .task record)]
      exact pushed.trans (List.perm_append_singleton _ _)
  | halted network =>
      cases turn
      exact .of_same rfl rfl rfl (.refl _)
  | finished =>
      cases turn
      exact .of_same rfl rfl rfl (.refl _)

/-! One task -/

/-- Some visits in a row: each is at the instant at which the one before it comes back. -/
def Course : Option Nat → List (Visit P) → Option Nat → Prop
  | due, [], last => last = due
  | due, visit :: rest, last => due = some visit.time ∧ Course visit.reaction.next? rest last

theorem Course.append {due : Option Nat} {first : Option Nat} {earlier : List (Visit P)}
    {visit : Visit P} (course : Course first earlier due) (now : due = some visit.time) :
    Course first (earlier ++ [visit]) visit.reaction.next? := by
  induction earlier generalizing first with
  | nil =>
      cases course
      exact ⟨now, rfl⟩
  | cons other rest induction =>
      obtain ⟨at_, later⟩ := course
      exact ⟨at_, induction later⟩

structure Unknown (id : Nat) (past : List (Moment P)) (phase : Phase P)
    (network : Network P) : Prop where
  later : network.nextTask ≤ id
  registered : ofTask id (registrations past) = []
  visited : visitsTo id past = []
  pending : ofTask id (outstanding phase network) = []

/-- The task with this number was registered once, and it is due at one instant, or done
with. -/
structure Underway (id start : Nat) (record : ScheduledTask P) (due : Option Nat)
    (past : List (Moment P)) (phase : Phase P) (network : Network P) : Prop where
  earlier : id < network.nextTask
  registered : ofTask id (registrations past) = [(start, record)]
  course : Course (some start) (visitsTo id past) due
  same : ∀ visit ∈ visitsTo id past, visit.record = record
  pending : ofTask id (outstanding phase network) =
    (due.map fun time => (time, record)).toList

inductive Tracked (id : Nat) (past : List (Moment P)) (phase : Phase P)
    (network : Network P) : Prop
  | unknown (unknown : Unknown id past phase network) : Tracked id past phase network
  | underway {start : Nat} {record : ScheduledTask P} {due : Option Nat}
      (underway : Underway id start record due past phase network) :
      Tracked id past phase network

theorem ofTask_registered {entries : List (Nat × ScheduledTask P)} {first count id : Nat}
    (ids : entries.map (·.2.id) ~ List.range' first count) :
    (¬ (first ≤ id ∧ id < first + count) ∧ ofTask id entries = []) ∨
      (first ≤ id ∧ id < first + count) ∧ ∃ entry, ofTask id entries = [entry] := by
  by_cases new : first ≤ id ∧ id < first + count
  · have given : id ∈ entries.map (·.2.id) :=
      ids.mem_iff.mpr (List.mem_range'_1.mpr new)
    obtain ⟨entry, member, rfl⟩ := List.mem_map.mp given
    exact .inr ⟨new, entry,
      filter_eq_singleton (ids.nodup_iff.mpr List.nodup_range') member⟩
  · refine .inl ⟨new, ?_⟩
    rw [ofTask, List.filter_eq_nil_iff]
    intro entry member same
    have given := ids.mem_iff.mp (List.mem_map_of_mem member)
    rw [of_decide_eq_true same] at given
    exact new (List.mem_range'_1.mp given)

theorem eq_toList_of_perm {α : Type} {items : List α} {item : Option α}
    (same : items ~ item.toList) : items = item.toList := by
  cases item with
  | none => exact List.perm_nil.mp same
  | some item => exact List.perm_singleton.mp same

variable {past : List (Moment P)} {visit : Visit P} {rest : List (Nat × ScheduledTask P)}
variable {id start : Nat} {record : ScheduledTask P} {due : Option Nat}

theorem ofTask_returning (own : visit.record.id = id) (returns : outstanding next moment.after =
      (visit.reaction.next?.map fun time => (time, visit.record)).toList ++ rest) :
    ofTask id (outstanding next moment.after) =
      (visit.reaction.next?.map fun time => (time, visit.record)).toList ++
        ofTask id rest := by
  rw [returns, ofTask_append]
  cases visit.reaction.next? with
  | none => rfl
  | some time => simp [ofTask, own]

theorem ofTask_returning_of_ne (other : visit.record.id ≠ id)
    (returns : outstanding next moment.after =
      (visit.reaction.next?.map fun time => (time, visit.record)).toList ++ rest) :
    ofTask id (outstanding next moment.after) = ofTask id rest := by
  rw [returns, ofTask_append]
  cases visit.reaction.next? with
  | none => rfl
  | some time => simp [ofTask, other]

theorem Underway.considers (underway : Underway id start record due past phase moment.before)
    (own : visit.record.id = id) (considered : moment.visit? = some visit)
    (nothing : moment.registered = [])
    (numbers : moment.after.nextTask = moment.before.nextTask)
    (head : outstanding phase moment.before = (visit.time, visit.record) :: rest)
    (returns : outstanding next moment.after =
      (visit.reaction.next?.map fun time => (time, visit.record)).toList ++ rest) :
    Underway id start record visit.reaction.next? (past ++ [moment]) next moment.after := by
  have pending := underway.pending
  rw [head, ofTask_cons, if_pos own] at pending
  obtain ⟨now, isRecord, others⟩ :
      due = some visit.time ∧ visit.record = record ∧ ofTask id rest = [] := by
    cases due with
    | none => cases pending
    | some time =>
        obtain ⟨first, others⟩ := List.cons.inj pending
        obtain ⟨rfl, isRecord⟩ := Prod.mk.inj first
        exact ⟨rfl, isRecord, others⟩
  have visited : visitsTo id (past ++ [moment]) = visitsTo id past ++ [visit] := by
    rw [visitsTo_append_of_some past considered, if_pos own]
  constructor
  · rw [numbers]
    exact underway.earlier
  · rw [registrations_append, nothing, List.append_nil]
    exact underway.registered
  · rw [visited]
    exact underway.course.append now
  · rw [visited]
    exact List.forall_mem_append.mpr ⟨underway.same, List.forall_mem_singleton.mpr isRecord⟩
  · rw [ofTask_returning own returns, others, List.append_nil, isRecord]

section Unaffected

variable {later : List (Moment P)} {before after : Network P}
variable (registered : ofTask id (registrations later) = ofTask id (registrations past))
variable (visited : visitsTo id later = visitsTo id past)
variable (pending : ofTask id (outstanding next after) = ofTask id (outstanding phase before))

include registered visited pending

theorem Unknown.of_same (unknown : Unknown id past phase before)
    (numbers : after.nextTask ≤ id) : Unknown id later next after where
  later := numbers
  registered := registered.trans unknown.registered
  visited := visited.trans unknown.visited
  pending := pending.trans unknown.pending

theorem Underway.of_same (underway : Underway id start record due past phase before)
    (numbers : before.nextTask ≤ after.nextTask) :
    Underway id start record due later next after where
  earlier := Nat.lt_of_lt_of_le underway.earlier numbers
  registered := registered.trans underway.registered
  course := visited ▸ underway.course
  same := visited ▸ underway.same
  pending := pending.trans underway.pending

end Unaffected

theorem Unknown.registers (unknown : Unknown id past phase moment.before) {count : Nat}
    (new : id < moment.before.nextTask + count) {entry : Nat × ScheduledTask P}
    (single : ofTask id moment.registered = [entry]) (silent : moment.visit? = none)
    (flow : outstanding next moment.after ~
      outstanding phase moment.before ++ moment.registered)
    (numbers : moment.after.nextTask = moment.before.nextTask + count) :
    Underway id entry.1 entry.2 (some entry.1) (past ++ [moment]) next moment.after where
  earlier := by
    rw [numbers]
    exact new
  registered := by rw [registrations_append, ofTask_append, unknown.registered, single]; rfl
  course := by
    rw [visitsTo_append_of_none past silent, unknown.visited]
    rfl
  same := by
    rw [visitsTo_append_of_none past silent, unknown.visited]
    exact List.forall_mem_nil _
  pending := by
    have perm : ofTask id (outstanding next moment.after) ~
        ofTask id (outstanding phase moment.before ++ moment.registered) := flow.filter _
    rw [ofTask_append, unknown.pending, single] at perm
    exact List.perm_singleton.mp perm

theorem Tracked.step (tracked : Tracked id past phase moment.before)
    (progress : moment.Progress phase next) : Tracked id (past ++ [moment]) next moment.after := by
  cases progress with
  | @visit visit rest considered nothing numbers head returns =>
      by_cases own : visit.record.id = id
      · cases tracked with
        | unknown unknown =>
            have none := unknown.pending
            rw [head, ofTask_cons, if_pos own] at none
            cases none
        | underway underway =>
            exact .underway (underway.considers own considered nothing numbers head returns)
      · -- The visit is to another task.
        have registered : ofTask id (registrations (past ++ [moment])) =
            ofTask id (registrations past) := by
          rw [registrations_append, nothing, List.append_nil]
        have visited : visitsTo id (past ++ [moment]) = visitsTo id past := by
          rw [visitsTo_append_of_some past considered, if_neg own, List.append_nil]
        have pending : ofTask id (outstanding next moment.after) =
            ofTask id (outstanding phase moment.before) := by
          rw [ofTask_returning_of_ne own returns, head, ofTask_cons, if_neg own]
          rfl
        cases tracked with
        | unknown unknown =>
            exact .unknown (unknown.of_same registered visited pending
              (numbers ▸ unknown.later))
        | underway underway =>
            exact .underway (underway.of_same registered visited pending
              (Nat.le_of_eq numbers.symm))
  | register count silent ids numbers flow =>
      have visited : visitsTo id (past ++ [moment]) = visitsTo id past :=
        visitsTo_append_of_none past silent
      have pending : ofTask id (outstanding next moment.after) ~
          ofTask id (outstanding phase moment.before) ++ ofTask id moment.registered := by
        rw [← ofTask_append]
        exact flow.filter _
      rcases ofTask_registered ids with ⟨old, none⟩ | ⟨new, entry, single⟩
      · -- No task of this number is registered now.
        have registered : ofTask id (registrations (past ++ [moment])) =
            ofTask id (registrations past) := by
          rw [registrations_append, ofTask_append, none, List.append_nil]
        rw [none, List.append_nil] at pending
        cases tracked with
        | unknown unknown =>
            have same : ofTask id (outstanding next moment.after) =
                ofTask id (outstanding phase moment.before) := by
              rw [unknown.pending] at pending ⊢
              exact List.perm_nil.mp pending
            have later := unknown.later
            exact .unknown (unknown.of_same registered visited same (by omega))
        | underway underway =>
            have same : ofTask id (outstanding next moment.after) =
                ofTask id (outstanding phase moment.before) := by
              rw [underway.pending] at pending ⊢
              exact eq_toList_of_perm pending
            exact .underway (underway.of_same registered visited same (by omega))
      · cases tracked with
        | unknown unknown => exact .underway (unknown.registers new.2 single silent flow numbers)
        | underway underway =>
            have earlier := underway.earlier
            omega

variable {first last : Phase P} {network stop : Network P}

theorem Passes.tracked (passes : Passes (Moment.Lawful behaviour good) network past stop)
    (orderly : Orderly .between past last) (vacant : network.queue = .empty)
    (fresh : network.nextTask = 0) (id : Nat) : Tracked id past last stop := by
  have general : stop.queue.WellFormed ∧ Tracked id past last stop := by
    refine passes.preserves_orderly (motive := fun earlier phase network =>
      network.queue.WellFormed ∧ Tracked id earlier phase network) orderly ?_ ?_
    · rw [vacant]
      refine ⟨EventQueue.wellFormed_empty, .unknown ⟨?_, rfl, rfl, ?_⟩⟩
      · rw [fresh]
        exact Nat.zero_le id
      · rw [outstanding, vacant]
        rfl
    · rintro earlier moment phase next lawful turn ⟨ordered, tracked⟩
      exact ⟨(lawful.flow ordered).1, tracked.step (lawful.progress turn ordered)⟩
  exact general.2

theorem Course.eq_nil {visits : List (Visit P)} (course : Course none visits due) :
    visits = [] ∧ due = none := by
  cases visits with
  | nil => exact ⟨rfl, course⟩
  | cons visit rest =>
      obtain ⟨now, -⟩ := course
      cases now

theorem Course.due_eq_none {from_ : Option Nat} {visits : List (Visit P)}
    (course : Course from_ visits due) (member : visit ∈ visits)
    (expired : visit.reaction.next? = none) : due = none := by
  induction visits generalizing from_ with
  | nil => cases member
  | cons head rest induction =>
      obtain ⟨-, later⟩ := course
      rcases List.mem_cons.mp member with rfl | inRest
      · rw [expired] at later
        exact later.eq_nil.2
      · exact induction later inRest

/-! What is pending -/

def Network.pendingOf (network : Network P) (id : Nat) : List (Nat × ScheduledTask P) :=
  ofTask id (waiting network.queue.items)

theorem Tracked.pendingOf (tracked : Tracked id past phase network) :
    (network.pendingOf id).length ≤ 1 ∧
      ((∃ visit ∈ visitsTo id past, visit.reaction = .retired) →
        network.pendingOf id = []) := by
  have parts : ofTask id (outstanding phase network) =
      ofTask id phase.task ++ network.pendingOf id := ofTask_append ..
  cases tracked with
  | unknown unknown =>
      have none := unknown.pending
      rw [parts, List.append_eq_nil_iff] at none
      rw [none.2]
      exact ⟨Nat.zero_le 1, fun _ => rfl⟩
  | @underway start record due underway =>
      have some := underway.pending
      rw [parts] at some
      constructor
      · have length := congrArg List.length some
        rw [List.length_append] at length
        cases due with
        | none =>
            rw [Option.map_none, Option.toList_none, List.length_nil] at length
            omega
        | some time =>
            rw [Option.map_some, Option.toList_some, List.length_singleton] at length
            omega
      · rintro ⟨visit, member, retired⟩
        have expired : visit.reaction.next? = none := by rw [retired]; rfl
        rw [underway.course.due_eq_none member expired] at some
        exact (List.append_eq_nil_iff.mp some).2

theorem Moment.Lawful.positive (lawful : moment.Lawful behaviour good)
    (ordered : moment.before.queue.WellFormed) :
    ∀ entry ∈ moment.registered, entry.2.kind.period? ≠ some 0 := by
  intro entry registers
  cases lawful with
  | operated quiet _ performed =>
      obtain ⟨pushes, enrols⟩ := Network.enrols_perform quiet performed
      exact enrols.positive entry ((enrols.registers ordered).mem_iff.mp registers)
  | began | took | rearmed | halted | finished => cases registers

theorem Passes.positive (passes : Passes (Moment.Lawful behaviour good) network past stop)
    (vacant : network.queue = .empty) :
    ∀ entry ∈ registrations past, entry.2.kind.period? ≠ some 0 := by
  intro entry member
  obtain ⟨moment, inPast, registers⟩ := List.mem_flatMap.mp member
  obtain ⟨lawful, ordered⟩ := passes.ordered vacant moment inPast
  exact lawful.positive ordered entry registers

theorem mem_registered_of_enlisted {op : Op P} {task : P.Task} {instant owner : Nat}
    {kind : Recurrence} (ordered : moment.before.queue.WellFormed)
    (operated : moment.happening = .operated op) (positive : kind.period? ≠ some 0)
    (after : moment.after = moment.before.enlisted task instant owner kind) :
    (instant, ⟨moment.before.nextTask, owner, kind, task⟩) ∈ moment.registered := by
  have enrols := Network.enrols_enlisted moment.before task instant owner positive
  rw [← after] at enrols
  rw [Moment.registered, operated]
  exact (enrols.registers ordered).mem_iff.mpr List.mem_cons_self

theorem mem_registered_of_schedule {task : P.Task} {owner : Nat} {kind : Recurrence}
    (ordered : moment.before.queue.WellFormed)
    (operated : moment.happening = .operated (.schedule task start owner kind))
    (scheduled : moment.before.schedule task start owner kind = (.ok id, moment.after)) :
    (start, ⟨id, owner, kind, task⟩) ∈ moment.registered := by
  obtain ⟨rfl, after, positive⟩ := Network.schedule_eq_ok scheduled
  exact mem_registered_of_enlisted ordered operated positive after

end TaskCourse

end Simnet
