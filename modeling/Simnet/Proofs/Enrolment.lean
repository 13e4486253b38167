import Simnet.Proofs.Phases

namespace Simnet

/-! The tasks among the events. Operations give every task that they register a number
of its own, the next one, and leave the counts of the fired and skipped instants alone. -/

section Enrolment

open scoped List

variable {P : Protocol}

def tasks (events : List (Nat × Event P)) : List (Nat × ScheduledTask P) :=
  events.filterMap fun event =>
    match event.2 with
    | .task record => some (event.1, record)
    | .delivery _ _ _ => none

def dated (entries : List (EventKey × Event P)) : List (Nat × Event P) :=
  entries.map fun entry => (entry.1.time, entry.2)

@[simp] theorem tasks_append (first second : List (Nat × Event P)) :
    tasks (first ++ second) = tasks first ++ tasks second :=
  List.filterMap_append

@[simp] theorem dated_append (first second : List (EventKey × Event P)) :
    dated (first ++ second) = dated first ++ dated second :=
  List.map_append

@[simp] theorem dated_numberFrom (first : Nat) (pushes : List (Nat × Event P)) :
    dated (EventQueue.numberFrom first pushes) = pushes := by
  induction pushes generalizing first with
  | nil => rfl
  | cons pushed rest induction =>
      have later := induction (first + 1)
      rw [dated] at later
      rw [EventQueue.numberFrom, dated, List.map_cons, later]

def waiting (entries : List (EventKey × Event P)) : List (Nat × ScheduledTask P) :=
  tasks (dated entries)

theorem mem_waiting {entries : List (EventKey × Event P)} {time : Nat}
    {record : ScheduledTask P} (member : (time, record) ∈ waiting entries) :
    ∃ entry ∈ entries, entry.1.time = time := by
  obtain ⟨event, inDated, isTask⟩ := List.mem_filterMap.mp member
  obtain ⟨entry, inEntries, rfl⟩ := List.mem_map.mp inDated
  refine ⟨entry, inEntries, ?_⟩
  split at isTask
  · cases isTask
    rfl
  · cases isTask

theorem waiting_perm {first second : List (EventKey × Event P)} (same : first ~ second) :
    waiting first ~ waiting second :=
  (same.map _).filterMap _

theorem waiting_pushAll (queue : EventQueue (Event P)) (pushes : List (Nat × Event P)) :
    waiting (queue.pushAll pushes).items ~ waiting queue.items ++ tasks pushes := by
  calc waiting (queue.pushAll pushes).items
    _ ~ waiting (queue.items ++ EventQueue.numberFrom queue.enqueued pushes) :=
        waiting_perm (queue.pushAll_perm pushes)
    _ = waiting queue.items ++ tasks pushes := by
        rw [waiting, dated_append, dated_numberFrom, tasks_append, waiting]

namespace Network

/-- The registrations among the pushes of an operation. -/
structure Enrols (before after : Network P) (pushes : List (Nat × Event P)) : Prop where
  queue : after.queue = before.queue.pushAll pushes
  ids : (tasks pushes).map (·.2.id) = List.range' before.nextTask (tasks pushes).length
  next : after.nextTask = before.nextTask + (tasks pushes).length
  positive : ∀ entry ∈ tasks pushes, entry.2.kind.period? ≠ some 0
  fired : after.counters.tasksFired = before.counters.tasksFired
  skipped : after.counters.tasksSkipped = before.counters.tasksSkipped

variable {before middle after : Network P} {pushes later : List (Nat × Event P)}

theorem Enrols.none (queue : after.queue = before.queue.pushAll pushes)
    (vacant : tasks pushes = []) (next : after.nextTask = before.nextTask)
    (fired : after.counters.tasksFired = before.counters.tasksFired)
    (skipped : after.counters.tasksSkipped = before.counters.tasksSkipped) :
    Enrols before after pushes where
  queue := queue
  ids := by
    rw [vacant]
    rfl
  next := by
    rw [vacant]
    exact next
  positive := by
    rw [vacant]
    exact List.forall_mem_nil _
  fired := fired
  skipped := skipped

theorem Enrols.trans (first : Enrols before middle pushes)
    (second : Enrols middle after later) : Enrols before after (pushes ++ later) where
  queue := by rw [second.queue, first.queue, EventQueue.pushAll_append]
  ids := by
    rw [tasks_append, List.map_append, first.ids, second.ids, first.next, List.length_append,
      List.range'_append_1]
  next := by rw [second.next, first.next, tasks_append, List.length_append, Nat.add_assoc]
  positive := by
    rw [tasks_append]
    exact List.forall_mem_append.mpr ⟨first.positive, second.positive⟩
  fired := second.fired.trans first.fired
  skipped := second.skipped.trans first.skipped

theorem Enrols.registers (enrols : Enrols before after pushes)
    (ordered : before.queue.WellFormed) :
    waiting (after.queue.since before.queue.enqueued) ~ tasks pushes := by
  rw [enrols.queue]
  have came := waiting_perm (ordered.since_pushAll pushes)
  rw [waiting, waiting, dated_numberFrom] at came
  exact came

variable {kept : Prop}

theorem enrols_commitFate (network : Network P) (message : P.Message) (sender : Nat)
    (decision : Nat × Fate) :
    ∃ pushes, Enrols network (commitFate message sender network decision) pushes := by
  obtain ⟨receiver, fate⟩ := decision
  cases fate with
  | deliver arrival =>
      exact ⟨[(arrival, .delivery sender receiver message)], .none rfl rfl rfl rfl rfl⟩
  | _ => exact ⟨[], .none rfl rfl rfl rfl rfl⟩

theorem enrols_enlisted (network : Network P) (task : P.Task) (start owner : Nat)
    {kind : Recurrence} (positive : kind.period? ≠ some 0) :
    Enrols network (network.enlisted task start owner kind)
      [(start, .task ⟨network.nextTask, owner, kind, task⟩)] where
  queue := rfl
  ids := rfl
  next := rfl
  positive := by
    intro entry member
    obtain rfl := List.mem_singleton.mp member
    exact positive
  fired := rfl
  skipped := rfl

theorem schedule_eq_ok {network after : Network P} {task : P.Task} {start owner id : Nat}
    {kind : Recurrence}
    (scheduled : network.schedule task start owner kind = (.ok id, after)) :
    id = network.nextTask ∧ after = network.enlisted task start owner kind ∧
      kind.period? ≠ some 0 := by
  unfold schedule at scheduled
  split at scheduled
  · cases scheduled
  · split at scheduled
    · cases scheduled
    · split at scheduled
      · cases scheduled
      · rename_i positive
        cases scheduled
        exact ⟨rfl, rfl, positive⟩

theorem Change.enrols (change : Change kept before after) :
    ∃ pushes, Enrols before after pushes := by
  cases change with
  | draw | join | edit | divide | heal | link | unlink | build | mark | insert | receive =>
      exact ⟨[], .none rfl rfl rfl rfl rfl⟩
  | settle message => exact enrols_commitFate before message _ _
  | enlist task _ _ positive => exact ⟨_, enrols_enlisted before task _ _ positive⟩

theorem Changes.enrols (changes : Changes kept before after) :
    ∃ pushes, Enrols before after pushes := by
  induction changes with
  | refl => exact ⟨[], .none rfl rfl rfl rfl rfl⟩
  | tail _ change induction =>
      obtain ⟨pushes, first⟩ := induction
      obtain ⟨later, second⟩ := change.enrols
      exact ⟨pushes ++ later, first.trans second⟩

theorem enrols_perform {op : Op P} {answer : op.Answer} (quiet : op.isRun = false)
    (performed : op.perform Op.idle before = some (answer, after)) :
    ∃ pushes, Enrols before after pushes :=
  have changes : Changes False before after := changes_perform quiet False.elim performed
  changes.enrols

end Network

end Enrolment

end Simnet
