import Simnet.Proofs.Enrolment
import Simnet.Proofs.Flood

namespace Simnet

/-! Visits to tasks. A task is visited at an instant when it is taken off the queue. What
becomes of it is decided on the network as the visit finds it, and shows in the counts of
the instants at which bodies ran and did not. -/

section Visits

variable {P : Protocol}

structure Visit (P : Protocol) where
  time : Nat
  record : ScheduledTask P
  reaction : Reaction

namespace Moment

def visit? (moment : Moment P) : Option (Visit P) :=
  match moment.happening with
  | .took key (.task record) reaction => some ⟨key.time, record, reaction⟩
  | _ => none

end Moment

def visits (past : List (Moment P)) : List (Visit P) :=
  past.filterMap Moment.visit?

def visitsTo (id : Nat) (past : List (Moment P)) : List (Visit P) :=
  (visits past).filter fun visit => visit.record.id = id

section Lists

variable (past : List (Moment P)) {moment : Moment P} {visit : Visit P} {id : Nat}

theorem visits_append_of_none (none : moment.visit? = none) :
    visits (past ++ [moment]) = visits past := by
  simp [visits, none]

theorem visits_append_of_some (some : moment.visit? = some visit) :
    visits (past ++ [moment]) = visits past ++ [visit] := by
  simp [visits, some]

theorem visitsTo_append_of_none (none : moment.visit? = none) :
    visitsTo id (past ++ [moment]) = visitsTo id past := by
  rw [visitsTo, visits_append_of_none past none, visitsTo]

theorem visitsTo_append_of_some (some : moment.visit? = some visit) :
    visitsTo id (past ++ [moment]) =
      visitsTo id past ++ if visit.record.id = id then [visit] else [] := by
  rw [visitsTo, visits_append_of_some past some, List.filter_append, visitsTo]
  by_cases own : visit.record.id = id
  · rw [if_pos own, List.filter_cons_of_pos (by simpa using own), List.filter_nil]
  · rw [if_neg own, List.filter_cons_of_neg (by simpa using own), List.filter_nil]

end Lists

variable {behaviour : Behaviour P} {good : Op P → Prop} {moment : Moment P}
variable {past : List (Moment P)} {visit : Visit P} {network : Network P}

theorem exists_moment_of_visit (member : visit ∈ visits past) : ∃ moment ∈ past, ∃ key,
    moment.happening = .took key (.task visit.record) visit.reaction ∧ visit.time = key.time := by
  obtain ⟨moment, inPast, considered⟩ := List.mem_filterMap.mp member
  refine ⟨moment, inPast, ?_⟩
  unfold Moment.visit? at considered
  split at considered
  · rename_i key record reaction took
    cases considered
    exact ⟨key, took, rfl⟩
  · cases considered

theorem exists_taken_of_visit (member : visit ∈ visits past) :
    ∃ entry ∈ taken past, visit.time = entry.1.time := by
  obtain ⟨moment, inPast, key, took, now⟩ := exists_moment_of_visit member
  refine ⟨(key, .task visit.record), List.mem_flatMap.mpr ⟨moment, inPast, ?_⟩, now⟩
  rw [Moment.taken, took]
  exact List.mem_singleton_self _

/-! What becomes of a task at a visit -/

namespace Behaviour

def keeps (behaviour : Behaviour P) (record : ScheduledTask P) (network : Network P) : Bool :=
  ! record.kind.isConditional || behaviour.keepRunning record.task network record.owner

/-- Whether the body of a task runs: its owner is up, and a conditional task is enabled. -/
def enables (behaviour : Behaviour P) (record : ScheduledTask P) (network : Network P) :
    Bool :=
  network.isLive record.owner &&
    (! record.kind.isConditional || behaviour.stillEnabled record.task network record.owner)

end Behaviour

def Moment.found (moment : Moment P) : Network P :=
  moment.before.arrive moment.after.queue moment.after.time

/-- A visit to a task ends the task without a trace when the task is not to be kept. Else
the body runs or the visit is counted as skipped, and the task comes back either way. -/
inductive Moment.Considers (behaviour : Behaviour P) (moment : Moment P) (time : Nat)
    (record : ScheduledTask P) : Reaction → Prop
  | retired (expired : behaviour.keeps record moment.found = false)
      (untouched : moment.after = moment.found) :
      Considers behaviour moment time record .retired
  | fired {next : Option Nat} (kept : behaviour.keeps record moment.found = true)
      (enabled : behaviour.enables record moment.found = true)
      (comes : next = record.kind.period?.map fun period => time + period)
      (counted : moment.after = { moment.found with
        counters := { moment.found.counters with
          tasksFired := moment.found.counters.tasksFired + 1 } }) :
      Considers behaviour moment time record (.acted next)
  | skipped {next : Option Nat} (kept : behaviour.keeps record moment.found = true)
      (disabled : behaviour.enables record moment.found = false)
      (comes : next = record.kind.period?.map fun period => time + period)
      (counted : moment.after = { moment.found with
        counters := { moment.found.counters with
          tasksSkipped := moment.found.counters.tasksSkipped + 1 } }) :
      Considers behaviour moment time record (.skipped next)

theorem Network.eq_of_nextInstant {kind : Recurrence} {time : Nat} {next : Option Nat}
    (comes : nextInstant kind time = .ok next) :
    next = kind.period?.map fun period => time + period := by
  unfold nextInstant at comes
  split at comes
  · rename_i once
    cases comes
    rw [once]
    rfl
  · rename_i period back
    split at comes
    · cases comes
    · rename_i instant later
      cases comes
      obtain ⟨rfl, -⟩ := timeAfter_eq_ok_iff.mp later
      rw [back]
      rfl

theorem Moment.considers_of_reaction {time : Nat} {record : ScheduledTask P}
    (finds : moment.found = network)
    (counted : moment.after = network.countEvent (.task record)
      (network.reaction behaviour time (.task record)))
    (accepted : ∀ error, network.reaction behaviour time (.task record) ≠ .refused error) :
    moment.Considers behaviour time record
      (network.reaction behaviour time (.task record)) := by
  subst finds
  simp only [Network.reaction] at counted accepted ⊢
  cases owner : moment.found.node? record.owner with
  | none =>
      simp only [owner] at accepted
      exact absurd rfl (accepted _)
  | some node =>
      have live : moment.found.isLive record.owner = ! node.info.down := by
        rw [Network.isLive, owner]
      simp only [owner] at counted accepted ⊢
      split at counted
      · rename_i expired
        rw [if_pos expired]
        refine .retired ?_ counted
        simpa [Behaviour.keeps] using expired
      · rename_i kept
        rw [if_neg kept] at accepted ⊢
        have keeps : behaviour.keeps record moment.found = true := by
          simp only [Behaviour.keeps, Bool.or_eq_true, Bool.not_eq_true', Bool.and_eq_true,
            not_and, Bool.not_eq_false] at kept ⊢
          cases conditional : record.kind.isConditional with
          | false => exact .inl rfl
          | true => exact .inr (kept conditional)
        cases instant : Network.nextInstant record.kind time with
        | error error =>
            simp only [instant] at accepted
            exact absurd rfl (accepted _)
        | ok next =>
            have comes := Network.eq_of_nextInstant instant
            have enables : behaviour.enables record moment.found = (! node.info.down &&
                (! record.kind.isConditional ||
                  behaviour.stillEnabled record.task moment.found record.owner)) := by
              rw [Behaviour.enables, live]
            simp only [instant] at counted ⊢
            rw [← enables] at counted ⊢
            split at counted
            · rename_i enabled
              rw [if_pos enabled]
              exact .fired keeps enabled comes counted
            · rename_i disabled
              rw [if_neg disabled]
              exact .skipped keeps (Bool.not_eq_true _ ▸ disabled) comes counted

theorem Moment.Lawful.considers (lawful : moment.Lawful behaviour good) {key : EventKey}
    {record : ScheduledTask P} {reaction : Reaction}
    (took : moment.happening = .took key (.task record) reaction)
    (accepted : ∀ error, reaction ≠ .refused error) :
    moment.after.time = key.time ∧ moment.Considers behaviour key.time record reaction := by
  cases lawful with
  | @took before queue _ event deadline popped =>
      cases took
      refine ⟨Network.time_countEvent .., Moment.considers_of_reaction ?_ rfl accepted⟩
      rw [Moment.found, Network.queue_countEvent, Network.time_countEvent]
      rfl
  | operated | began | rearmed | halted | finished => cases took

namespace Reaction

def isActed : Reaction → Bool
  | acted _ => true
  | _ => false

def isSkipped : Reaction → Bool
  | skipped _ => true
  | _ => false

end Reaction

section Considers

variable {time : Nat} {record : ScheduledTask P} {reaction : Reaction}

theorem Moment.Considers.returns
    (considers : moment.Considers behaviour time record reaction) :
    reaction = .retired ∨ (reaction ≠ .retired ∧
      reaction.next? = record.kind.period?.map fun period => time + period) := by
  cases considers with
  | retired => exact .inl rfl
  | fired _ _ comes | skipped _ _ comes =>
      exact .inr ⟨fun retired => (nomatch retired), comes⟩

theorem Moment.Considers.counts
    (considers : moment.Considers behaviour time record reaction) :
    reaction = .retired ∨ reaction.isActed = true ∨ reaction.isSkipped = true := by
  cases considers with
  | retired => exact .inl rfl
  | fired => exact .inr (.inl rfl)
  | skipped => exact .inr (.inr rfl)

end Considers

structure Counted (past : List (Moment P)) (network : Network P) : Prop where
  fired : network.counters.tasksFired = (visits past).countP fun visit =>
    visit.reaction.isActed
  skipped : network.counters.tasksSkipped = (visits past).countP fun visit =>
    visit.reaction.isSkipped

theorem Counted.of_same (counted : Counted past moment.before) (silent : moment.visit? = none)
    (fired : moment.after.counters.tasksFired = moment.before.counters.tasksFired)
    (skipped : moment.after.counters.tasksSkipped = moment.before.counters.tasksSkipped) :
    Counted (past ++ [moment]) moment.after where
  fired := by rw [visits_append_of_none past silent, fired, counted.fired]
  skipped := by rw [visits_append_of_none past silent, skipped, counted.skipped]

theorem Counted.considers (counted : Counted past moment.before)
    (considered : moment.visit? = some visit)
    (fired : moment.after.counters.tasksFired =
      moment.before.counters.tasksFired + if visit.reaction.isActed then 1 else 0)
    (skipped : moment.after.counters.tasksSkipped =
      moment.before.counters.tasksSkipped + if visit.reaction.isSkipped then 1 else 0) :
    Counted (past ++ [moment]) moment.after where
  fired := by
    rw [visits_append_of_some past considered, List.countP_append, List.countP_singleton,
      fired, counted.fired]
  skipped := by
    rw [visits_append_of_some past considered, List.countP_append, List.countP_singleton,
      skipped, counted.skipped]

theorem Counted.step (counted : Counted past moment.before)
    (lawful : moment.Lawful behaviour good) : Counted (past ++ [moment]) moment.after := by
  cases lawful with
  | operated quiet _ performed =>
      obtain ⟨_, enrols⟩ := Network.enrols_perform quiet performed
      exact counted.of_same rfl enrols.fired enrols.skipped
  | began started =>
      obtain ⟨-, -, rfl⟩ := Network.start_eq_ok started
      exact counted.of_same rfl rfl rfl
  | @took before queue key event deadline popped =>
      cases event with
      | delivery sender receiver message =>
          refine counted.of_same rfl ?_ ?_ <;>
            cases (before.arrive queue key.time).reaction behaviour key.time
              (.delivery sender receiver message) <;> rfl
      | task record =>
          refine counted.considers rfl ?_ ?_ <;>
            cases (before.arrive queue key.time).reaction behaviour key.time
              (.task record) <;> rfl
  | rearmed | halted | finished => exact counted.of_same rfl rfl rfl

theorem Visit.sum_counts {visits : List (Visit P)}
    (lawful : ∀ visit ∈ visits, visit.reaction = .retired ∨
      visit.reaction.isActed = true ∨ visit.reaction.isSkipped = true) :
    (visits.countP fun visit => visit.reaction.isActed) +
        (visits.countP fun visit => visit.reaction.isSkipped) =
      visits.countP fun visit => visit.reaction ≠ .retired := by
  induction visits with
  | nil => rfl
  | cons visit rest induction =>
      rw [List.forall_mem_cons] at lawful
      have later := induction lawful.2
      rw [List.countP_cons, List.countP_cons, List.countP_cons, ← later]
      cases reacts : visit.reaction with
      | refused _ | dropped => simp [reacts, Reaction.isActed, Reaction.isSkipped] at lawful
      | retired => simp [Reaction.isActed, Reaction.isSkipped]
      | skipped _ | acted _ =>
          simp [Reaction.isActed, Reaction.isSkipped]
          omega

end Visits

end Simnet
