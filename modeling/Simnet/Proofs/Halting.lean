import Simnet.Proofs.Atomicity
import Simnet.Proofs.Slicing

namespace Simnet

/-! Halted networks. A network halts when an event fails, and nothing undoes it: runs are
refused, and the other operations leave the flag alone. Nothing but the start of a run
looks at the flag, so a network that answers that it has halted has aborted before. -/

section Halting

variable {P : Protocol}

/-! Operations that do not run the network never answer that it has halted. -/

theorem timeAfter_ne_halted (base delta : Nat) : timeAfter base delta ≠ .error .halted := by
  intro halted
  obtain ⟨-, overflow⟩ := timeAfter_eq_error_iff.mp halted
  cases overflow

theorem NetworkConfig.validate_ne_halted (config : NetworkConfig) :
    config.validate ≠ .error .halted := by
  grind [validate]

theorem OverlayConfig.validate_ne_halted (config : OverlayConfig) (nodeCount : Nat) :
    config.validate nodeCount ≠ .error .halted := by
  grind [validate]

namespace Partition

theorem assignGroup_ne_halted (group : Nat) (slots : List (Option Nat)) (nodes : List Nat) :
    assignGroup group slots nodes ≠ .error .halted := by
  induction nodes generalizing slots with
  | nil => grind [assignGroup]
  | cons node rest induction => grind [assignGroup, assign]

theorem assignGroups_ne_halted (group : Nat) (slots : List (Option Nat))
    (groups : List (List Nat)) : assignGroups group slots groups ≠ .error .halted := by
  induction groups generalizing group slots with
  | nil => grind [assignGroups]
  | cons members rest induction => grind [assignGroups, assignGroup_ne_halted]

theorem ofGroups_ne_halted (groups : List (List Nat)) (nodeCount : Nat) :
    ofGroups groups nodeCount ≠ .error .halted := by
  grind [ofGroups, assignGroups_ne_halted]

end Partition

namespace BlockTree

variable {β : Type} (tree : BlockTree β)

theorem block_ne_halted (id : Nat) : tree.block id ≠ .error .halted := by
  grind [block]

theorem insert_ne_halted (proposal : BlockProposal β) :
    tree.insert proposal ≠ .error .halted := by
  grind [insert, block_ne_halted]

end BlockTree

namespace Network

variable (network : Network P)

theorem node_ne_halted (id : Nat) : network.node id ≠ .error .halted := by
  grind [node]

theorem addNode_ne_halted (info : NodeInfo) (state : P.State) :
    (network.addNode info state).1 ≠ .error .halted := by
  grind [addNode]

theorem updateNode_ne_halted (id : Nat) (change : Node P → Node P) :
    (network.updateNode id change).1 ≠ .error .halted := by
  grind [updateNode]

theorem fate_ne_halted (origin sender receiver : Nat) (rng : Rng) :
    network.fate origin sender receiver rng ≠ .error .halted := by
  grind [fate, node_ne_halted, timeAfter_ne_halted]

theorem fates_ne_halted (origin sender : Nat) (receivers : List Nat) (rng : Rng) :
    network.fates origin sender receivers rng ≠ .error .halted := by
  induction receivers generalizing rng with
  | nil => grind [fates]
  | cons receiver rest induction => grind [fates, fate_ne_halted]

theorem sendToMany_ne_halted (message : P.Message) (origin sender : Nat)
    (receivers : List Nat) :
    (network.sendToMany message origin sender receivers).1 ≠ .error .halted := by
  grind [sendToMany, checkSend, fates_ne_halted]

theorem schedule_ne_halted (task : P.Task) (start owner : Nat) (kind : Recurrence) :
    (network.schedule task start owner kind).1 ≠ .error .halted := by
  grind [schedule]

theorem installPartition_ne_halted (groups : List (List Nat)) :
    (network.installPartition groups).1 ≠ .error .halted := by
  grind [installPartition, Partition.ofGroups_ne_halted]

theorem partitionByPosition_ne_halted (fraction : Float) :
    (network.partitionByPosition fraction).1 ≠ .error .halted := by
  grind [partitionByPosition, installPartition_ne_halted]

theorem setPeers_ne_halted (config : OverlayConfig) :
    (network.setPeers config).1 ≠ .error .halted := by
  grind [setPeers, OverlayConfig.validate_ne_halted]

theorem checkPair_ne_halted (first second : Nat) :
    network.checkPair first second ≠ .error .halted := by
  grind [checkPair, node_ne_halted]

theorem createLink_ne_halted (first second : Nat) :
    (network.createLink first second).1 ≠ .error .halted := by
  grind [createLink, checkPair_ne_halted]

theorem removeLink_ne_halted (first second : Nat) :
    (network.removeLink first second).1 ≠ .error .halted := by
  grind [removeLink, checkPair_ne_halted]

theorem peers_ne_halted (id : Nat) : network.peers id ≠ .error .halted := by
  grind [peers]

theorem planFlood_ne_halted (header : FloodHeader) (node : Nat) (sender : Option Nat) :
    network.planFlood header node sender ≠ .error .halted := by
  unfold planFlood
  split
  · grind [node_ne_halted]
  · split
    · nofun
    · split
      · grind [peers_ne_halted]
      · split
        · grind [timeAfter_ne_halted]
        · grind [timeAfter_ne_halted]

theorem sendStaggered_ne_halted (message : P.Message) (sender delay departure : Nat)
    (receivers : List Nat) :
    (sendStaggered message sender delay departure receivers network).1 ≠ .error .halted := by
  induction receivers generalizing departure network with
  | nil => grind [sendStaggered]
  | cons receiver rest induction => grind [sendStaggered, send, sendToMany_ne_halted]

theorem forwardFlood_ne_halted (message : P.Message) (header : FloodHeader) (node : Nat)
    (sender : Option Nat) :
    (network.forwardFlood message header node sender).1 ≠ .error .halted := by
  grind [forwardFlood, planFlood_ne_halted, sendToMany_ne_halted, sendStaggered_ne_halted]

theorem flood_ne_halted (message : P.Message) (header : FloodHeader) (origin : Nat) :
    (network.flood message header origin).1 ≠ .error .halted := by
  grind [flood, forwardFlood_ne_halted]

theorem createBlock_ne_halted (proposal : BlockProposal P.Payload) :
    (network.createBlock proposal).1 ≠ .error .halted := by
  grind [createBlock, BlockTree.insert_ne_halted]

theorem acceptBlock_ne_halted (node : Nat) (block : Block P.Payload) :
    (network.acceptBlock node block).1 ≠ .error .halted := by
  grind [acceptBlock]

theorem deferBlock_ne_halted (node : Nat) (block : Block P.Payload) :
    (network.deferBlock node block).1 ≠ .error .halted := by
  grind [deferBlock, registerTask, schedule_ne_halted]

theorem offerBlock_ne_halted (node id : Nat) :
    (network.offerBlock node id).1 ≠ .error .halted := by
  grind [offerBlock, BlockTree.block_ne_halted, acceptBlock_ne_halted, deferBlock_ne_halted]

end Network

theorem failureOf_ne_halted {α : Type} {call : Outcome P α} (other : call.1 ≠ .error .halted)
    {answer : Except Error α} {after : Network P} (performed : some call = some (answer, after)) :
    failureOf answer ≠ some .halted := by
  cases performed
  exact fun failed => other (failureOf_eq_some failed)

theorem Op.failure_ne_halted {op : Op P} (quiet : op.isRun = false)
    {network after : Network P} {answer : op.Answer}
    (performed : op.perform Op.idle network = some (answer, after)) :
    op.failure? answer ≠ some .halted := by
  cases op with
  | runUntil _ | runFor _ | runSeconds _ => cases quiet
  | read | setRng _ | createNode _ _ | endPartition => nofun
  | addNode info state =>
      exact failureOf_ne_halted (network.addNode_ne_halted info state) performed
  | setState node _ | setLocation node _ | setInfo node _ | setDown node _ | markDone node
  | disconnect node =>
      exact failureOf_ne_halted (network.updateNode_ne_halted node _) performed
  | sendToMany message origin sender receivers =>
      exact failureOf_ne_halted (network.sendToMany_ne_halted message origin sender receivers)
        performed
  | sendAll message origin sender =>
      exact failureOf_ne_halted (network.sendToMany_ne_halted message origin sender _) performed
  | schedule task start owner kind =>
      exact failureOf_ne_halted (network.schedule_ne_halted task start owner kind) performed
  | partition groups =>
      exact failureOf_ne_halted (network.installPartition_ne_halted groups) performed
  | partitionByPosition fraction =>
      exact failureOf_ne_halted (network.partitionByPosition_ne_halted fraction) performed
  | setPeers config =>
      exact failureOf_ne_halted (network.setPeers_ne_halted config) performed
  | createLink first second =>
      exact failureOf_ne_halted (network.createLink_ne_halted first second) performed
  | removeLink first second =>
      exact failureOf_ne_halted (network.removeLink_ne_halted first second) performed
  | flood message header origin =>
      exact failureOf_ne_halted (network.flood_ne_halted message header origin) performed
  | receiveFlood message header sender receiver =>
      exact failureOf_ne_halted (network.forwardFlood_ne_halted message header receiver _) performed
  | createBlock proposal =>
      exact failureOf_ne_halted (network.createBlock_ne_halted proposal) performed
  | offerBlock node id =>
      exact failureOf_ne_halted (network.offerBlock_ne_halted node id) performed

/-! Runs of a network that has not halted -/

namespace Network

variable {behaviour : Behaviour P} {network after : Network P}

theorem start_ne_halted (running : network.halted = false) (deadline : Nat) :
    network.start deadline ≠ .error .halted := by
  unfold start
  rw [if_neg (by simp [running])]
  split
  · nofun
  · split
    · nofun
    · grind [NetworkConfig.validate_ne_halted]

/-- The answer is not that the network has halted, and only an abort halts it. -/
def Answers (result : Except Error Unit) (after : Network P) : Prop :=
  result ≠ .error .halted ∧
    (after.halted = false ∨ ∃ error, result = .error error ∧ error.isAborted = true)

theorem answers_of_runUntil (calm : behaviour.Calm) (running : network.halted = false)
    {fuel deadline : Nat} {result : Except Error Unit}
    (ran : runUntil behaviour fuel deadline network = some (result, after)) :
    Answers result after := by
  unfold runUntil startThen at ran
  cases started : network.start deadline with
  | error error =>
      rw [started] at ran
      cases ran
      have other := start_ne_halted running deadline
      rw [started] at other
      exact ⟨by simpa using other, .inl running⟩
  | ok begun =>
      rw [started] at ran
      obtain ⟨-, -, rfl⟩ := start_eq_ok started
      cases result with
      | error error =>
          have aborted := isAborted_of_drain ran
          refine ⟨?_, .inr ⟨error, rfl, aborted⟩⟩
          rintro ⟨⟩
          cases aborted
      | ok _ =>
          refine ⟨nofun, .inl ?_⟩
          rw [(drain_flags calm ran).halted]
          exact running

theorem answers_of_runTo (calm : behaviour.Calm) (running : network.halted = false)
    {fuel : Nat} {deadline : Except Error Nat} (inRange : deadline ≠ .error .halted)
    {result : Except Error Unit}
    (ran : network.runTo (runUntil behaviour fuel) deadline = some (result, after)) :
    Answers result after := by
  unfold runTo at ran
  cases deadline with
  | error error =>
      cases ran
      exact ⟨by simpa using inRange, .inl running⟩
  | ok instant => exact answers_of_runUntil calm running ran

theorem deadlineAfterSeconds_ne_halted (network : Network P) (seconds : Nat) :
    network.deadlineAfterSeconds seconds ≠ .error .halted := by
  grind [deadlineAfterSeconds, deadlineAfter, timeAfter_ne_halted]

end Network

theorem Network.Answers.failure {result : Except Error Unit} {after : Network P}
    (answers : Network.Answers result after) :
    failureOf result ≠ some .halted ∧ (after.halted = false ∨
      ∃ error, failureOf result = some error ∧ error.isAborted = true) := by
  obtain ⟨other, still⟩ := answers
  refine ⟨fun failed => other (failureOf_eq_some failed), still.imp_right ?_⟩
  rintro ⟨error, rfl, aborted⟩
  exact ⟨error, rfl, aborted⟩

variable {behaviour : Behaviour P}

theorem Op.failure_running (calm : behaviour.Calm) {fuel : Nat} {op : Op P}
    {network after : Network P} {answer : op.Answer} (running : network.halted = false)
    (performed : op.perform (Network.runUntil behaviour fuel) network =
      some (answer, after)) :
    op.failure? answer ≠ some .halted ∧ (after.halted = false ∨
      ∃ error, op.failure? answer = some error ∧ error.isAborted = true) := by
  cases quiet : op.isRun with
  | false =>
      rw [perform_idle quiet] at performed
      obtain ⟨_, effect⟩ := Network.effect_perform False quiet False.elim performed
      exact ⟨failure_ne_halted quiet performed, .inl (effect.halted.trans running)⟩
  | true =>
      cases op with
      | runUntil deadline => exact (Network.answers_of_runUntil calm running performed).failure
      | runFor milliseconds =>
          exact (Network.answers_of_runTo calm running (timeAfter_ne_halted _ _)
            performed).failure
      | runSeconds seconds =>
          exact (Network.answers_of_runTo calm running
            (network.deadlineAfterSeconds_ne_halted seconds) performed).failure
      | _ => cases quiet

/-! Lives -/

/-- The errors with which the operations of a program fail, one after the other. A program
that does not end has those that come before. -/
def Program.failures {α : Type} (run : Runner P) : Program P α → Network P → List Error
  | pure _, _ => []
  | call op next, network =>
      match op.perform run network with
      | none => []
      | some (answer, after) => (op.failure? answer).toList ++ (next answer).failures run after

theorem eq_append_of_ne {α : Type} {first : Option α} {item : α} {rest earlier later : List α}
    (other : first ≠ some item) (same : first.toList ++ rest = earlier ++ item :: later) :
    ∃ between, earlier = first.toList ++ between ∧ rest = between ++ item :: later := by
  cases first with
  | none => exact ⟨earlier, rfl, same⟩
  | some head =>
      cases earlier with
      | nil =>
          obtain ⟨rfl, -⟩ := List.cons.inj same
          exact absurd rfl other
      | cons next between =>
          obtain ⟨rfl, rest⟩ := List.cons.inj same
          exact ⟨between, rfl, rest⟩

theorem Program.failures_running {α : Type} (calm : behaviour.Calm) (program : Program P α)
    (fuel : Nat) {network : Network P} (running : network.halted = false)
    {earlier later : List Error}
    (fails : program.failures (Network.runUntil behaviour fuel) network =
      earlier ++ .halted :: later) : ∃ error ∈ earlier, error.isAborted = true := by
  induction program generalizing network earlier with
  | pure value => simp [failures] at fails
  | call op next induction =>
      rw [failures] at fails
      cases performed : op.perform (Network.runUntil behaviour fuel) network with
      | none => simp [performed] at fails
      | some ended =>
          obtain ⟨answer, after⟩ := ended
          simp only [performed] at fails
          obtain ⟨other, still⟩ := Op.failure_running calm running performed
          obtain ⟨between, rfl, rest⟩ := eq_append_of_ne other fails
          rcases still with unhalted | ⟨error, failed, aborted⟩
          · obtain ⟨error, member, aborted⟩ := induction answer unhalted rest
            exact ⟨error, List.mem_append_right _ member, aborted⟩
          · refine ⟨error, List.mem_append_left _ ?_, aborted⟩
            rw [failed]
            exact List.mem_singleton_self error

/-! After the halt -/

namespace Network

variable {network : Network P}

theorem runUntil_halted (halted : network.halted = true) (fuel deadline : Nat) :
    runUntil behaviour fuel deadline network = some (.error .halted, network) := by
  unfold runUntil startThen
  rw [start_halted halted]

theorem recordRun_halted (halted : network.halted = true) (fuel deadline : Nat) :
    recordRun behaviour fuel deadline network = .still (.error .halted) network := by
  unfold recordRun recordStart
  rw [start_halted halted]

theorem runTo_halted (halted : network.halted = true) (fuel : Nat)
    (deadline : Except Error Nat) :
    ∃ error, network.runTo (runUntil behaviour fuel) deadline =
      some (.error error, network) := by
  cases deadline with
  | error error => exact ⟨error, rfl⟩
  | ok instant => exact ⟨.halted, runUntil_halted halted fuel instant⟩

end Network

theorem Op.perform_run_halted {op : Op P} (runs : op.isRun = true) (fuel : Nat)
    {network : Network P} (halted : network.halted = true) :
    ∃ answer error, op.perform (Network.runUntil behaviour fuel) network =
      some (answer, network) ∧ op.failure? answer = some error := by
  cases op with
  | runUntil deadline => exact ⟨_, _, Network.runUntil_halted halted fuel deadline, rfl⟩
  | runFor milliseconds =>
      obtain ⟨error, refused⟩ := Network.runTo_halted halted fuel
        (network.deadlineAfter milliseconds)
      exact ⟨_, error, refused, rfl⟩
  | runSeconds seconds =>
      obtain ⟨error, refused⟩ := Network.runTo_halted halted fuel
        (network.deadlineAfterSeconds seconds)
      exact ⟨_, error, refused, rfl⟩
  | _ => cases runs

theorem Op.run_halted (behaviour : Behaviour P) (op : Op P) (fuel : Nat)
    {network : Network P} (halted : network.halted = true) :
    ∃ answer after, op.perform (Network.runUntil behaviour fuel) network =
        some (answer, after) ∧ after.halted = true ∧
      taken (op.record (Network.recordRun behaviour fuel) network).history = [] := by
  cases quiet : op.isRun with
  | false =>
      obtain ⟨answer, after, performed⟩ := perform_quiet quiet network
      obtain ⟨_, effect⟩ :=
        Network.effect_perform False quiet False.elim (performed Op.idle)
      refine ⟨answer, after, performed _, effect.halted.trans halted, ?_⟩
      rw [record_of_quiet quiet, performed]
      rfl
  | true =>
      obtain ⟨answer, _, refused, -⟩ := perform_run_halted quiet fuel halted
      refine ⟨answer, network, refused, halted, ?_⟩
      have still : ∀ deadline, taken
          (Network.recordRun behaviour fuel deadline network).history = [] := by
        intro deadline
        rw [Network.recordRun_halted halted]
        rfl
      cases op with
      | runUntil deadline => exact still deadline
      | runFor milliseconds =>
          simp only [record]
          split
          · rfl
          · exact still _
      | runSeconds seconds =>
          simp only [record]
          split
          · rfl
          · exact still _
      | _ => cases quiet

/-- Whatever is done to the network, no event of it is executed any more, and every run
fails and leaves it as it is. -/
def Network.Over (behaviour : Behaviour P) (network : Network P) : Prop :=
  ∀ (α : Type) (later : Program P α) (fuel : Nat), ∃ value stop,
    later.exec (runUntil behaviour fuel) network = some (value, stop) ∧
    taken (later.record (recordRun behaviour fuel) network).history = [] ∧
    ∀ (op : Op P) (more : Nat), op.isRun = true → ∃ answer error,
      op.perform (runUntil behaviour more) stop = some (answer, stop) ∧
        op.failure? answer = some error

theorem Network.over_of_halted (behaviour : Behaviour P) {network : Network P}
    (halted : network.halted = true) : network.Over behaviour := by
  intro α later fuel
  induction later generalizing network with
  | pure value =>
      exact ⟨value, network, rfl, rfl, fun op more runs => op.perform_run_halted runs more halted⟩
  | call op next induction =>
      obtain ⟨answer, after, performed, still, nothing⟩ := op.run_halted behaviour fuel halted
      obtain ⟨value, stop, executed, nothingLater, refused⟩ := induction answer still
      refine ⟨value, stop, ?_, ?_, refused⟩
      · rw [Program.exec, performed]
        exact executed
      · have result := (op.result_record (records_runUntil behaviour fuel) network).trans
          performed
        rw [Program.record, Recording.history_bind result, taken_append, nothing,
          nothingLater]
        rfl

end Halting

end Simnet
