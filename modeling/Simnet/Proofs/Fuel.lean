import Simnet.Network.Run

namespace Simnet

/-! Fuel only decides whether an execution ends, not how. A runner that ends more often
makes every program end as it did, and more fuel makes such a runner. -/

/-- The second runner ends at least as often as the first one, and as the first does. -/
def Runner.Extends {P : Protocol} (second first : Runner P) : Prop :=
  ∀ deadline network outcome,
    first deadline network = some outcome → second deadline network = some outcome

section Fuel

variable {P : Protocol} {α : Type} {first second : Runner P}

theorem Op.perform_extends (further : second.Extends first) {op : Op P}
    {network : Network P} {outcome : op.Answer × Network P}
    (performed : op.perform first network = some outcome) :
    op.perform second network = some outcome := by
  cases op with
  | runUntil deadline => exact further deadline network outcome performed
  | runFor milliseconds =>
      simp only [perform, Network.runTo] at performed ⊢
      cases reached : network.deadlineAfter milliseconds with
      | error error => simpa only [reached] using performed
      | ok deadline =>
          simp only [reached] at performed ⊢
          exact further deadline network outcome performed
  | runSeconds seconds =>
      simp only [perform, Network.runTo] at performed ⊢
      cases reached : network.deadlineAfterSeconds seconds with
      | error error => simpa only [reached] using performed
      | ok deadline =>
          simp only [reached] at performed ⊢
          exact further deadline network outcome performed
  | _ => exact performed

theorem Program.exec_extends (further : second.Extends first) {program : Program P α}
    {network : Network P} {outcome : α × Network P}
    (executed : program.exec first network = some outcome) :
    program.exec second network = some outcome := by
  induction program generalizing network with
  | pure value => exact executed
  | call op next induction =>
      simp only [exec] at executed ⊢
      cases performed : op.perform first network with
      | none => simp [performed] at executed
      | some ended =>
          simp only [performed] at executed
          simp only [Op.perform_extends further performed]
          exact induction ended.1 executed

namespace Network

variable {behaviour : Behaviour P}

theorem deliver_extends (further : second.Extends first) {network : Network P}
    {sender receiver : Nat} {message : P.Message} {outcome : Outcome P Unit}
    (delivered : network.deliver behaviour first sender receiver message = some outcome) :
    network.deliver behaviour second sender receiver message = some outcome := by
  unfold deliver at delivered ⊢
  cases found : network.node? receiver with
  | none => simpa only [found] using delivered
  | some node =>
      simp only [found] at delivered ⊢
      cases down : node.info.down with
      | true => simpa only [down, if_true] using delivered
      | false =>
          simp only [down, Bool.false_eq_true, if_false] at delivered ⊢
          exact Program.exec_extends further delivered

theorem fireTask_extends (further : second.Extends first) {network : Network P}
    {time : Nat} {record : ScheduledTask P} {outcome : Outcome P Unit}
    (fired : network.fireTask behaviour first time record = some outcome) :
    network.fireTask behaviour second time record = some outcome := by
  unfold fireTask at fired ⊢
  cases found : network.node? record.owner with
  | none => simpa only [found] using fired
  | some node =>
      simp only [found] at fired ⊢
      split
      · rename_i retired
        rwa [if_pos retired] at fired
      · rename_i kept
        rw [if_neg kept] at fired
        cases instant : nextInstant record.kind time with
        | error error => simpa only [instant] using fired
        | ok next =>
            simp only [instant] at fired ⊢
            split
            · rename_i enabled
              rw [if_pos enabled] at fired
              cases executed : (behaviour.fire record.task record.owner).run.exec first
                  { network with
                    counters := { network.counters with
                      tasksFired := network.counters.tasksFired + 1 } } with
              | none => simp [executed] at fired
              | some ended =>
                  rw [executed] at fired
                  rw [Program.exec_extends further executed]
                  exact fired
            · rename_i skipped
              rwa [if_neg skipped] at fired

theorem dispatch_extends (further : second.Extends first) {network : Network P}
    {time : Nat} {event : Event P} {outcome : Outcome P Unit}
    (dispatched : network.dispatch behaviour first time event = some outcome) :
    network.dispatch behaviour second time event = some outcome := by
  cases event with
  | delivery sender receiver message => exact deliver_extends further dispatched
  | task record => exact fireTask_extends further dispatched

theorem execute_extends (further : second.Extends first) {network : Network P}
    {key : EventKey} {event : Event P} {outcome : Outcome P Unit}
    (executed : network.execute behaviour first key event = some outcome) :
    network.execute behaviour second key event = some outcome := by
  unfold execute at executed ⊢
  cases dispatched : dispatch behaviour first { network with time := key.time } key.time
      event with
  | none => simp [dispatched] at executed
  | some ended =>
      rw [dispatched] at executed
      rw [dispatch_extends further dispatched]
      exact executed

theorem startThen_extends (further : second.Extends first) :
    Runner.Extends (startThen second) (startThen first) := by
  intro deadline network outcome ran
  unfold startThen at ran ⊢
  cases started : network.start deadline with
  | error error => simpa only [started] using ran
  | ok after =>
      simp only [started] at ran ⊢
      exact further deadline after outcome ran

theorem drain_extends_succ (behaviour : Behaviour P) (fuel : Nat) :
    Runner.Extends (drain behaviour (fuel + 1)) (drain behaviour fuel) := by
  induction fuel with
  | zero =>
      intro deadline network outcome drained
      cases drained
  | succ fuel induction =>
      intro deadline network outcome drained
      rw [drain] at drained ⊢
      cases popped : network.queue.popDue deadline with
      | none => simpa only [popped] using drained
      | some taken =>
          obtain ⟨⟨key, event⟩, queue⟩ := taken
          simp only [popped] at drained ⊢
          cases executed : execute behaviour (startThen (drain behaviour fuel))
              { network with queue := queue } key event with
          | none => simp [executed] at drained
          | some ended =>
              rw [executed] at drained
              rw [execute_extends (startThen_extends induction) executed]
              obtain ⟨result, after⟩ := ended
              cases result with
              | error error => exact drained
              | ok _ => exact induction deadline after outcome drained

theorem drain_extends (behaviour : Behaviour P) {fuel more : Nat} (enough : fuel ≤ more) :
    Runner.Extends (drain behaviour more) (drain behaviour fuel) := by
  induction enough with
  | refl => exact fun _ _ _ drained => drained
  | step _ induction =>
      intro deadline network outcome drained
      exact drain_extends_succ behaviour _ _ _ _ (induction deadline network outcome drained)

theorem runUntil_extends (behaviour : Behaviour P) {fuel more : Nat} (enough : fuel ≤ more) :
    Runner.Extends (runUntil behaviour more) (runUntil behaviour fuel) :=
  startThen_extends (drain_extends behaviour enough)

end Network

namespace Program

def Ends (behaviour : Behaviour P) (program : Program P α) (network : Network P)
    (outcome : α × Network P) : Prop :=
  ∃ fuel, program.exec (Network.runUntil behaviour fuel) network = some outcome

variable {behaviour : Behaviour P} {program : Program P α} {network : Network P}
variable {outcome other : α × Network P}

theorem Ends.unique (ends : program.Ends behaviour network outcome)
    (otherEnds : program.Ends behaviour network other) : outcome = other := by
  obtain ⟨fuel, executed⟩ := ends
  obtain ⟨otherFuel, otherExecuted⟩ := otherEnds
  have left := exec_extends
    (Network.runUntil_extends behaviour (Nat.le_max_left fuel otherFuel)) executed
  have right := exec_extends
    (Network.runUntil_extends behaviour (Nat.le_max_right fuel otherFuel)) otherExecuted
  rw [left] at right
  exact Option.some.inj right

theorem exec_bind {β : Type} (program : Program P α) (next : α → Program P β)
    (run : Runner P) (network : Network P) :
    (program.bind next).exec run network =
      match program.exec run network with
      | none => none
      | some (value, after) => (next value).exec run after := by
  induction program generalizing network with
  | pure value => rfl
  | call op rest induction =>
      simp only [bind, exec]
      cases op.perform run network with
      | none => rfl
      | some ended => exact induction ended.1 ended.2

theorem exec_perform (op : Op P) (run : Runner P) (network : Network P) :
    (perform op).exec run network = op.perform run network := by
  simp only [perform, exec]
  cases op.perform run network with
  | none => rfl
  | some ended => rfl

theorem ends_bind_iff {β : Type} {next : α → Program P β} {last : β × Network P} :
    (program.bind next).Ends behaviour network last ↔
      ∃ value middle, program.Ends behaviour network (value, middle) ∧
        (next value).Ends behaviour middle last := by
  constructor
  · rintro ⟨fuel, executed⟩
    rw [exec_bind] at executed
    cases early : program.exec (Network.runUntil behaviour fuel) network with
    | none => simp [early] at executed
    | some ended =>
        simp only [early] at executed
        exact ⟨ended.1, ended.2, ⟨fuel, early⟩, ⟨fuel, executed⟩⟩
  · rintro ⟨value, middle, ⟨fuel, early⟩, ⟨more, late⟩⟩
    refine ⟨max fuel more, ?_⟩
    rw [exec_bind, exec_extends
      (Network.runUntil_extends behaviour (Nat.le_max_left fuel more)) early]
    exact exec_extends
      (Network.runUntil_extends behaviour (Nat.le_max_right fuel more)) late

theorem ends_pure_iff {value : α} :
    (Program.pure value).Ends behaviour network outcome ↔ outcome = (value, network) := by
  constructor
  · rintro ⟨fuel, executed⟩
    exact (Option.some.inj executed).symm
  · rintro rfl
    exact ⟨0, rfl⟩

end Program

end Fuel

end Simnet
