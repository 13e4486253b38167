import Simnet.Proofs.Bodies
import Simnet.Proofs.ProposalTime
import Simnet.Proofs.TaskSchedule
import Simnet.Proofs.TreeGrowth

namespace Simnet

/-! Deferred blocks. A block that is offered early leaves nothing behind but a task that is
to offer it again at its proposal time. The task comes off the queue then, its owner is up,
and the run goes on only if the offer was answered, so by the end of that instant the block
is received, unless another one stands in its place. -/

section Deferral

variable {P : Protocol}

/-! Offers in a program -/

/-- The program succeeds only after an offer of the block to the node that was not answered
with an error. -/
inductive Program.Offers (node block : Nat) : Program P (Except Error Unit) → Prop
  | failed (error : Error) : Offers node block (.pure (.error error))
  | offered {next : Except Error Bool → Program P (Except Error Unit)}
      (again : ∀ error, Offers node block (next (.error error))) :
      Offers node block (.call (.offerBlock node block) next)
  | called {op : Op P} {next : op.Answer → Program P (Except Error Unit)}
      (later : ∀ answer, Offers node block (next answer)) : Offers node block (.call op next)

/-- The task that is made of a deferred block offers it to its owner, and fails where the
offer does. -/
def Behaviour.Retries (behaviour : Behaviour P) : Prop :=
  ∀ block owner, (behaviour.fire (P.retry ⟨block⟩) owner).run.Offers owner block

structure Moment.Answers (moment : Moment P) (node block : Nat) : Prop where
  operated : moment.happening = .operated (.offerBlock node block)
  answered : ∃ answer, moment.before.offerBlock node block = (.ok answer, moment.after)

theorem Op.record_eq_single {op : Op P} (quiet : op.isRun = false) (recorder : Recorder P)
    {network after : Network P} {answer : op.Answer}
    (performed : op.perform idle network = some (answer, after)) :
    op.record recorder network = .single network (.operated op) answer after := by
  rw [record_of_quiet quiet, performed]

theorem Program.Offers.exists_answer {node block : Nat}
    {program : Program P (Except Error Unit)} (offers : program.Offers node block)
    (quiet : program.All fun op => op.isRun = false) (recorder : Recorder P)
    {network final : Network P}
    (succeeded : (program.record recorder network).result = some (.ok (), final)) :
    ∃ moment ∈ (program.record recorder network).history, moment.Answers node block := by
  induction offers generalizing network with
  | failed error => cases succeeded
  | @offered next again induction =>
      obtain ⟨-, nextQuiet⟩ := quiet
      obtain ⟨answer, after, offered⟩ :
          ∃ answer after, network.offerBlock node block = (answer, after) := ⟨_, _, rfl⟩
      have recorded : Op.record recorder network (.offerBlock node block) =
          .single network (.operated (.offerBlock node block)) answer after :=
        Op.record_eq_single rfl recorder (congrArg some offered)
      rw [record, recorded, Recording.result_bind] at succeeded
      rw [record, recorded, Recording.history_bind (Recording.result_single ..)]
      cases answer with
      | ok answer =>
          exact ⟨_, List.mem_append_left _ (List.mem_singleton_self _), rfl, answer, offered⟩
      | error error =>
          obtain ⟨moment, member, answers⟩ := induction error (nextQuiet _) succeeded
          exact ⟨moment, List.mem_append_right _ member, answers⟩
  | @called op next later induction =>
      obtain ⟨opQuiet, nextQuiet⟩ := quiet
      obtain ⟨answer, after, performed⟩ := Op.perform_quiet opQuiet network
      have recorded := Op.record_eq_single opQuiet recorder (performed Op.idle)
      rw [record, recorded, Recording.result_bind] at succeeded
      rw [record, recorded, Recording.history_bind (Recording.result_single ..)]
      obtain ⟨moment, member, answers⟩ := induction answer (nextQuiet answer) succeeded
      exact ⟨moment, List.mem_append_right _ member, answers⟩

/-! Early offers, and all others -/

namespace BlockTree

variable {β : Type} {tree : BlockTree β} {block : Block β}

/-- Another accepted block stands in the place of the block: it is of the same producer, at
the same height. -/
def HasRival (tree : BlockTree β) (block : Block β) : Prop :=
  ∃ rival ∈ tree.blocksAtHeight block.height,
    rival.id ≠ block.id ∧ rival.producer = block.producer

theorem hasRival_of_conflicting {pair : Nat × Nat}
    (conflicts : tree.conflicting block = some pair) : tree.HasRival block := by
  unfold conflicting at conflicts
  split at conflicts
  · cases conflicts
  · rename_i producer produces
    obtain ⟨rival, found, -⟩ := Option.map_eq_some_iff.mp conflicts
    have other := List.find?_some found
    simp only [ne_eq, decide_eq_true_eq] at other
    exact ⟨rival, List.mem_of_find?_eq_some found, other.1, other.2.trans produces.symm⟩

end BlockTree

namespace Network

variable {network after : Network P} {node id : Nat} {block : Block P.Payload}

theorem offerBlock_deferred (deferring : network.config.earlyBlockPolicy = .defer)
    (known : node < network.nodeCount) (found : network.tree.block? id = some block)
    (number : block.id = id) (valid : block.valid = true)
    (new : network.tree.hasReceived node id = false)
    (early : network.time < block.proposalTime) :
    network.offerBlock node id =
      (.ok false, network.enlisted (P.retry ⟨id⟩) block.proposalTime node .oneShot) := by
  obtain ⟨owner, present⟩ : ∃ owner, network.node? node = some owner :=
    ⟨_, List.getElem?_eq_getElem known⟩
  have notPast : ¬ block.proposalTime < network.time := by omega
  have registered : network.registerTask (P.retry ⟨block.id⟩) block.proposalTime node =
      (.ok network.nextTask,
        network.enlisted (P.retry ⟨id⟩) block.proposalTime node .oneShot) := by
    unfold registerTask schedule
    rw [present, number]
    simp only [if_neg notPast]
    rfl
  unfold offerBlock
  rw [present, BlockTree.block_eq_ok_iff.mpr found]
  simp only [valid, new, if_pos early, deferring, deferBlock, registered]
  rfl

/-- An offer that is not answered with an error leaves the block received if it is valid and
due, unless it has a rival. -/
theorem received_of_offerBlock {answer : Bool} (viewed : network.Viewed)
    (coherent : network.tree.Coherent)
    (offered : network.offerBlock node id = (.ok answer, after)) :
    ∃ block, network.tree.block? id = some block ∧
      (block.valid = true → block.proposalTime ≤ network.time →
        after.tree.hasReceived node id = true ∨
          network.config.allowEquivocation = true ∧ network.tree.HasRival block) := by
  unfold offerBlock at offered
  split at offered
  · cases offered
  · rename_i present
    have known : node < network.tree.received.length :=
      viewed ▸ lt_nodeCount_of_node? present
    split at offered
    · cases offered
    · rename_i block found
      rw [BlockTree.block_eq_ok_iff] at found
      refine ⟨block, found, fun valid due => ?_⟩
      split at offered
      · rename_i refused
        rw [valid] at refused
        cases offered
        exact .inl refused
      · rw [if_neg (Nat.not_lt.mpr due)] at offered
        unfold acceptBlock at offered
        split at offered
        · rename_i conflicts
          split at offered
          · rename_i allowed
            exact .inr ⟨allowed, BlockTree.hasRival_of_conflicting conflicts⟩
          · cases offered
        · cases offered
          have number := coherent.numbered found
          have received : (network.tree.receive node block.id).hasReceived node id = true :=
            (BlockTree.hasReceived_receive known ..).mpr (.inr ⟨rfl, number.symm⟩)
          exact .inl received

end Network

/-! Around a moment -/

variable {behaviour : Behaviour P} {good : Op P → Prop} {law : Moment P → Prop}
variable {moment : Moment P} {start stop : Network P} {past : List (Moment P)}

theorem Passes.around (passes : Passes law start past stop) (member : moment ∈ past) :
    ∃ earlier later, past = earlier ++ moment :: later ∧
      Passes law start earlier moment.before ∧
      Passes law moment.before (moment :: later) stop := by
  obtain ⟨earlier, later, rfl⟩ := List.append_of_mem member
  obtain ⟨_, first, second⟩ := passes.split
  obtain rfl := second.1
  exact ⟨earlier, later, rfl, first, second⟩

theorem Passes.time_mono (passes : Passes law start past stop)
    (forth : ∀ moment ∈ past, moment.before.time ≤ moment.after.time) :
    start.time ≤ stop.time := by
  have timed : Passes (fun moment => moment.before.time ≤ moment.after.time) start past stop :=
    passes.of_forall_mem fun moment member _ => forth moment member
  exact timed.preserves (motive := fun _ network => start.time ≤ network.time) (Nat.le_refl _)
    fun _ _ forth reached => Nat.le_trans reached forth

theorem Moment.Lawful.halted_mono (lawful : moment.Lawful behaviour good)
    (halted : moment.before.halted = true) : moment.after.halted = true := by
  cases lawful with
  | operated quiet _ performed =>
      obtain ⟨_, effect⟩ := Network.effect_perform False quiet False.elim performed
      exact effect.halted.trans halted
  | began started =>
      obtain ⟨-, -, rfl⟩ := Network.start_eq_ok started
      exact halted
  | @took before queue key event deadline popped =>
      generalize (before.arrive queue key.time).reaction behaviour key.time event = reaction
      cases event <;> cases reaction <;> exact halted
  | rearmed | finished => exact halted
  | halted => rfl

theorem Passes.not_halted (passes : Passes (Moment.Lawful behaviour good) start past stop)
    (running : stop.halted = false) : ∀ moment ∈ past, moment.happening ≠ .halted := by
  intro moment member halts
  obtain ⟨_, _, -, -, -, -, later⟩ := passes.around member
  have halted : moment.after.halted = true := by
    have lawful := passes.lawful moment member
    cases lawful with
    | halted => rfl
    | operated | began | took | rearmed | finished => cases halts
  have still : stop.halted = true :=
    later.preserves (motive := fun _ network => network.halted = true) halted
      fun _ _ lawful => lawful.halted_mono
  rw [running] at still
  cases still

/-! The retry -/

theorem Passes.visits_start (passes : Passes (Moment.Lawful behaviour good) start past stop)
    (orderly : Orderly .between past .between) (vacant : start.queue = .empty)
    (fresh : start.nextTask = 0) {deadline : Nat}
    (idle : stop.queue.popDue deadline = none) {entry : Nat × ScheduledTask P}
    (registered : entry ∈ registrations past) (due : entry.1 ≤ deadline) :
    ∃ visit ∈ visits past, visit.time = entry.1 ∧ visit.record = entry.2 := by
  obtain ⟨first, record⟩ := entry
  have own : (first, record) ∈ ofTask record.id (registrations past) :=
    List.mem_filter.mpr ⟨registered, decide_eq_true rfl⟩
  cases passes.tracked orderly vacant fresh record.id with
  | unknown unknown =>
      rw [unknown.registered] at own
      cases own
  | underway underway =>
      rw [underway.registered, List.mem_singleton] at own
      cases own
      have course := underway.course
      have same := underway.same
      have pending := underway.pending
      cases visited : visitsTo record.id past with
      | nil =>
          -- The task would still be in the queue, and due.
          rw [visited] at course
          cases course
          have waits : (first, record) ∈ waiting stop.queue.items := by
            have inside : (first, record) ∈ ofTask record.id (outstanding .between stop) := by
              rw [pending]
              exact List.mem_singleton_self _
            exact (List.mem_filter.mp inside).1
          obtain ⟨item, inItems, rfl⟩ := mem_waiting waits
          have ordered := (passes.flow (vacant ▸ EventQueue.wellFormed_empty)).1
          have later := ordered.popDue_eq_none_iff.mp idle item inItems
          omega
      | cons visit rest =>
          rw [visited] at course same
          obtain ⟨now, -⟩ := course
          have inVisits : visit ∈ visitsTo record.id past :=
            visited ▸ List.mem_cons_self
          exact ⟨visit, (List.mem_filter.mp inVisits).1, (Option.some.inj now).symm,
            same visit List.mem_cons_self⟩

theorem Moment.Considers.acted_of_oneShot {time : Nat} {record : ScheduledTask P}
    {reaction : Reaction} (considers : moment.Considers behaviour time record reaction)
    (once : record.kind = .oneShot) (live : moment.after.isLive record.owner = true) :
    reaction = .acted none := by
  cases considers with
  | retired expired =>
      rw [Behaviour.keeps, once] at expired
      cases expired
  | fired _ _ comes =>
      rw [comes, once]
      rfl
  | skipped _ disabled _ counted =>
      have found : moment.found.isLive record.owner = true := by
        rw [counted] at live
        exact live
      rw [Behaviour.enables, found, once] at disabled
      cases disabled

/-- What a life leaves whose last run has succeeded. -/
structure Completed (behaviour : Behaviour P) (start : Network P) (history : List (Moment P))
    (deadline : Nat) (final : Network P) : Prop where
  passes : Passes (Moment.Punctual behaviour) start history final
  orderly : Orderly .between history .between
  running : final.halted = false
  idle : final.queue.popDue deadline = none

variable {final : Network P} {history : List (Moment P)} {deadline : Nat}

theorem Program.completed {α : Type} (calm : behaviour.Calm) (life : Program P α)
    (deadline fuel : Nat)
    (succeeded : (life.bind fun _ => .perform (.runUntil deadline)).exec
      (Network.runUntil behaviour fuel) start = some (.ok (), final)) :
    Completed behaviour start
      ((life.bind fun _ => .perform (.runUntil deadline)).record
        (Network.recordRun behaviour fuel) start).history deadline final := by
  obtain ⟨middle, ran⟩ : ∃ middle,
      Network.runUntil behaviour fuel deadline middle = some (.ok (), final) := by
    rw [exec_bind] at succeeded
    split at succeeded
    · cases succeeded
    · rename_i value middle _
      rw [exec_perform] at succeeded
      exact ⟨middle, succeeded⟩
  have recorded := (result_record (Network.records_runUntil behaviour fuel) _ start).trans
    succeeded
  obtain ⟨stop, passes, result⟩ := life_punctual calm
    (life.bind fun _ => .perform (.runUntil deadline)) fuel start
  obtain ⟨last, orderly, settles⟩ := life_ends calm
    (life.bind fun _ => .perform (.runUntil deadline)) fuel
    (fun _ => rfl : start.halted = false → (.between : Phase P) = .between)
  obtain rfl := result _ _ recorded
  have running := Network.running_of_runUntil calm ran
  obtain rfl := settles _ _ recorded running
  exact ⟨passes, orderly, running, (Network.runUntil_eq_ok ran).2⟩

namespace Completed

variable {node id : Nat}

theorem body_ran (completed : Completed behaviour start history deadline final)
    (calm : behaviour.Calm) (carried : Carried behaviour history)
    (vacant : start.queue = .empty) (fresh : start.nextTask = 0) {instant : Nat}
    {record : ScheduledTask P} (registered : (instant, record) ∈ registrations history)
    (once : record.kind = .oneShot) (due : instant ≤ deadline)
    (live : ∀ moment ∈ history, moment.after.time = instant →
      moment.after.isLive record.owner = true) :
    ∃ (recorder : Recorder P) (network after : Network P), network.time = instant ∧
      ((behaviour.fire record.task record.owner).run.record recorder network).result =
        some (.ok (), after) ∧
      ∀ moment ∈
        ((behaviour.fire record.task record.owner).run.record recorder network).history,
          moment ∈ history := by
  have lawful := completed.passes.weaken fun _ punctual => punctual.lawful
  obtain ⟨visit, visited, now, same⟩ := lawful.visits_start completed.orderly vacant fresh
    completed.idle registered due
  obtain ⟨moment, member, key, took, keyed⟩ := exists_moment_of_visit visited
  rw [now] at keyed
  rw [same] at took
  have accepted := completed.orderly.accepted fun refused => nomatch refused
  obtain ⟨clock, considers⟩ := (lawful.lawful moment member).considers took
    fun error refused => accepted moment member key _ error (refused ▸ took)
  rw [← keyed] at clock
  have acted := considers.acted_of_oneShot once (live moment member clock)
  have acts : moment.actsOn? = some (.task record) := by
    rw [Moment.actsOn?, took, acted]
  obtain ⟨recorder, inside, halts⟩ := carried.exists_body calm member acts
  obtain ⟨outcome, after, executed, -⟩ :=
    Program.exec_quiet (calm.body (.task record)) moment.after
  have records : recorder.Records fun deadline network => (recorder deadline network).result :=
    fun _ _ => rfl
  have result := (Program.result_record records _ moment.after).trans (executed _)
  cases outcome with
  | error error =>
      obtain ⟨halt, halting, halted⟩ := halts error after result
      exact absurd halted (lawful.not_halted completed.running halt halting)
  | ok _ => exact ⟨recorder, moment.after, after, clock, result, inside⟩

theorem exists_answer (completed : Completed behaviour start history deadline final)
    (calm : behaviour.Calm) (retries : behaviour.Retries) (carried : Carried behaviour history)
    (vacant : start.queue = .empty) (fresh : start.nextTask = 0) {instant number : Nat}
    (registered : (instant, ⟨number, node, .oneShot, P.retry ⟨id⟩⟩) ∈ registrations history)
    (due : instant ≤ deadline)
    (live : ∀ moment ∈ history, moment.after.time = instant →
      moment.after.isLive node = true) :
    ∃ offer ∈ history, offer.Answers node id ∧ offer.before.time = instant := by
  obtain ⟨recorder, network, after, clock, result, inside⟩ :=
    completed.body_ran calm carried vacant fresh registered rfl due live
  obtain ⟨offer, member, answers⟩ := (retries id node).exists_answer
    (calm.2 (P.retry ⟨id⟩) node) recorder result
  obtain ⟨stop, steady, -⟩ := Network.body_steady calm recorder network
    (.task ⟨number, node, .oneShot, P.retry ⟨id⟩⟩)
  have still : offer.before.time = instant :=
    steady.forall_mem (motive := fun network => network.time = instant) clock
      (fun _ steady same => steady.still.trans same) (fun _ _ same => same) offer member
  exact ⟨offer, inside offer member, answers, still⟩

end Completed

/-! What was received, and when -/

theorem Moment.Lawful.new_of_acceptance (lawful : moment.Lawful behaviour good)
    (viewed : moment.before.Viewed) {node id : Nat}
    (accepts : moment.acceptance? = some (node, id)) :
    moment.before.tree.hasReceived node id = false := by
  have step := lawful.step viewed
  rw [accepts] at step
  generalize moment.before.tree = tree at step ⊢
  generalize moment.after.tree = after at step
  cases step with
  | accepted _ _ _ _ new => exact new

theorem Passes.not_accepted (passes : Passes (Moment.Lawful behaviour good) start past stop)
    (viewed : start.Viewed) (coherent : start.tree.Coherent) {node id : Nat}
    (received : start.tree.hasReceived node id = true) :
    ∀ moment ∈ past, moment.acceptance? ≠ some (node, id) := by
  refine passes.forall_mem (motive := fun network => network.Viewed ∧ network.tree.Coherent ∧
    network.tree.hasReceived node id = true) ⟨viewed, coherent, received⟩ ?_ ?_
  · rintro moment lawful ⟨viewed, coherent, received⟩
    have step := lawful.step viewed
    exact ⟨lawful.viewed viewed, step.coherent coherent, (step.grows coherent).received received⟩
  · rintro moment lawful ⟨viewed, -, received⟩ accepts
    rw [lawful.new_of_acceptance viewed accepts] at received
    cases received

/-- What is known of the network that a moment finds, next to the network at the end. -/
structure Network.Situated (network final : Network P) (config : NetworkConfig) : Prop where
  viewed : network.Viewed
  coherent : network.tree.Coherent
  config : network.config = config
  grows : network.tree.Extends final.tree

variable {config : NetworkConfig} {latency : Latency} {genesis : P.Payload}

theorem Passes.situated
    (passes : Passes (Moment.Lawful behaviour good) (.new config latency genesis) past stop)
    (member : moment ∈ past) : moment.before.Situated stop config := by
  obtain ⟨earlier, later, -, first, second⟩ := passes.around member
  obtain ⟨viewed, coherent, -⟩ :=
    first.receipts rfl (BlockTree.coherent_new genesis) ⟨nofun, nofun, .nil⟩
  refine ⟨viewed, coherent, ?_, second.grows viewed coherent⟩
  exact first.preserves (motive := fun _ network => network.config = config) rfl
    fun _ _ lawful same => lawful.config.trans same

/-- One offer of the block to the node was accepted, at the instant, and no other was. -/
structure AcceptedAt (history : List (Moment P)) (final : Network P)
    (node id instant : Nat) : Prop where
  received : final.tree.hasReceived node id = true
  once : (acceptances history).count (node, id) = 1
  instant : ∀ moment ∈ history, moment.acceptance? = some (node, id) →
    moment.before.time = instant

theorem Passes.acceptedAt
    (passes : Passes (Moment.Punctual behaviour) (.new config latency genesis) history final)
    (guarded : config.earlyBlockPolicy ≠ .accept) {node id : Nat} {block : Block P.Payload}
    (found : final.tree.block? id = some block) (regular : id ≠ genesisId)
    {offer : Moment P} (member : offer ∈ history)
    (clock : offer.before.time = block.proposalTime)
    (received : offer.after.tree.hasReceived node id = true) :
    AcceptedAt history final node id block.proposalTime := by
  have lawful := passes.weaken fun _ punctual => punctual.lawful
  have forth := lawful.time_le rfl fun moment member => (passes.lawful moment member).forward
  have situated := lawful.situated member
  obtain ⟨earlier, later, split, first, -, offerLawful, second⟩ := lawful.around member
  have viewed := offerLawful.viewed situated.viewed
  have coherent := (offerLawful.step situated.viewed).coherent situated.coherent
  have stays := (second.grows viewed coherent).received received
  obtain ⟨-, -, receipts⟩ :=
    lawful.receipts rfl (BlockTree.coherent_new genesis) ⟨nofun, nofun, .nil⟩
  refine ⟨stays, ?_, ?_⟩
  · refine List.count_eq_one_of_mem receipts.distinct ?_
    exact (receipts.mem_of_hasReceived stays).resolve_left regular
  · intro moment inHistory accepts
    have place := lawful.situated inHistory
    obtain ⟨other, otherFound, reached⟩ :=
      (lawful.lawful moment inHistory).due_of_acceptance (place.config ▸ guarded) accepts
    rw [Option.some.inj ((place.grows.block? otherFound).symm.trans found)] at reached
    refine Nat.le_antisymm ?_ reached
    rw [← clock]
    -- After the offer it would have been received already.
    rw [split, List.mem_append, List.mem_cons] at inHistory
    rcases inHistory with before | rfl | after
    · obtain ⟨between, rest, isEarlier, -, meanwhile⟩ := first.around before
      refine meanwhile.time_mono fun moment inRest => forth moment ?_
      rw [split, isEarlier]
      exact List.mem_append_left _ (List.mem_append_right _ inRest)
    · exact Nat.le_refl _
    · exact absurd accepts (second.not_accepted viewed coherent received moment after)

theorem Moment.Lawful.offered (lawful : moment.Lawful behaviour good) {node id : Nat}
    (operated : moment.happening = .operated (.offerBlock node id)) :
    ∃ answer, moment.before.offerBlock node id = (answer, moment.after) := by
  cases lawful with
  | operated _ _ performed =>
      cases operated
      exact ⟨_, Option.some.inj performed⟩
  | began | took | rearmed | halted | finished => cases operated

/-- An early offer is answered false and leaves its retry, nothing else. If the retry fails where
its offer does, then a run that succeeds past the proposal time has accepted the block at that
time, unless a rival was let pass. -/
theorem Program.deferral_kept {α : Type} {behaviour : Behaviour P} (calm : behaviour.Calm)
    (retries : behaviour.Retries) (config : NetworkConfig)
    (deferring : config.earlyBlockPolicy = .defer) (latency : Latency) (genesis : P.Payload)
    (life : Program P α) (deadline fuel : Nat) {whole : Program P (Except Error Unit)}
    (ends : whole = life.bind fun _ => .perform (.runUntil deadline))
    {history : List (Moment P)}
    (lived : history = (whole.record (Network.recordRun behaviour fuel)
      (.new config latency genesis)).history) :
    ∀ moment ∈ history, ∀ node id block,
      moment.happening = .operated (.offerBlock node id) →
      node < moment.before.nodeCount → moment.before.tree.block? id = some block →
      block.valid = true → moment.before.tree.hasReceived node id = false →
      moment.before.time < block.proposalTime →
      moment.before.offerBlock node id = (.ok false, moment.after) ∧
      moment.after =
        moment.before.enlisted (P.retry ⟨id⟩) block.proposalTime node .oneShot ∧
      ∀ final, whole.exec (Network.runUntil behaviour fuel) (.new config latency genesis) =
          some (.ok (), final) → block.proposalTime ≤ deadline →
        (∀ other ∈ history, other.after.time = block.proposalTime →
          other.after.isLive node = true) →
        AcceptedAt history final node id block.proposalTime ∨
        config.allowEquivocation = true ∧ ∃ past rest, history = past ++ rest ∧
          (stateAfter (.new config latency genesis) past).time = block.proposalTime ∧
          (stateAfter (.new config latency genesis) past).tree.HasRival block := by
  intro moment member node id block operated known found valid new early
  obtain ⟨_, allPasses, -⟩ := whole.life_punctual calm fuel (.new config latency genesis)
  rw [← lived] at allPasses
  have allLawful := allPasses.weaken fun _ punctual => punctual.lawful
  have place := allLawful.situated member
  have number := place.coherent.numbered found
  have deferred := Network.offerBlock_deferred (place.config ▸ deferring) known found number
    valid new early
  obtain ⟨answer, offered⟩ := (allLawful.lawful moment member).offered operated
  obtain ⟨rfl, isAfter⟩ := Prod.mk.inj (offered.symm.trans deferred)
  refine ⟨offered, isAfter, ?_⟩
  -- What has been registered now is visited at the proposal time.
  intro final succeeded due live
  subst ends
  have completed := Program.completed calm life deadline fuel succeeded
  have carried := (life.bind fun _ => Program.perform (.runUntil deadline)).life_carried
    behaviour fuel (.new config latency genesis)
  rw [← lived] at completed carried
  have lawful := completed.passes.weaken fun _ punctual => punctual.lawful
  have remains := (lawful.situated member).grows.block? found
  have registered : (block.proposalTime,
      ⟨moment.before.nextTask, node, .oneShot, P.retry ⟨id⟩⟩) ∈ registrations history := by
    obtain ⟨-, ordered⟩ := lawful.ordered rfl moment member
    exact List.mem_flatMap.mpr
      ⟨moment, member, mem_registered_of_enlisted ordered operated nofun isAfter⟩
  obtain ⟨offer, inHistory, answers, clock⟩ :=
    completed.exists_answer calm retries carried rfl rfl registered due live
  obtain ⟨_, answered⟩ := answers.answered
  have situated := lawful.situated inHistory
  obtain ⟨other, otherFound, fulfilled⟩ :=
    Network.received_of_offerBlock situated.viewed situated.coherent answered
  obtain rfl : other = block :=
    Option.some.inj ((situated.grows.block? otherFound).symm.trans remains)
  rcases fulfilled valid (Nat.le_of_eq clock.symm) with received | ⟨allowed, rivaled⟩
  · refine .inl (completed.passes.acceptedAt ?_ remains ?_ inHistory clock received)
    · rw [deferring]
      nofun
    · -- The genesis block is never early.
      rintro rfl
      obtain ⟨earlier, later, split, first, -⟩ := lawful.around member
      have reached : moment.before.ReachedBy earlier :=
        first.stop_eq ▸ .life behaviour config latency genesis _ fuel (lived.symm.trans split)
      rw [(reached.hasReceived_iff known).mpr List.mem_cons_self] at new
      cases new
  · obtain ⟨earlier, later, split, first, -⟩ := lawful.around inHistory
    refine .inr ⟨situated.config ▸ allowed, earlier, offer :: later, split, ?_⟩
    rw [← first.stop_eq]
    exact ⟨clock, rivaled⟩

/-! A block of the fifth millisecond that a node is offered three times before -/

abbrev relay.recall : Protocol :=
  { relay with
    Task := BlockRetry
    retry := id }

def relay.recalling : Behaviour relay.recall where
  deliver _ _ _ := ExceptT.mk (.pure (.ok ()))
  fire retry owner := do
    let _ ← ExceptT.mk (Program.perform (.offerBlock owner retry.block))

def relay.impatient : Program relay.recall (Except Error Bool) := do
  let _ ← Program.perform (.addNode (.new ⟨0, 0, none⟩ false) ())
  let _ ← Program.perform (.addNode (.new ⟨3, 4, none⟩ false) ())
  let _ ← Program.perform (.createBlock ⟨0, 0, 1, 5, true, ()⟩)
  let _ ← Program.perform (.offerBlock 1 1)
  let _ ← Program.perform (.offerBlock 1 1)
  let _ ← Program.perform (.runUntil 3)
  Program.perform (.offerBlock 1 1)

def relay.recalled : Recording relay.recall (Except Error Unit) :=
  (relay.impatient.bind fun _ => .perform (.runUntil 9)).record
    (Network.recordRun relay.recalling 5) (.new {} (LatencyModel.fixed 2).latency ())

theorem relay_deferral_kept :
    (∃ moment ∈ relay.recalled.history, moment.happening = .operated (.offerBlock 1 1) ∧
      moment.before.time = 0 ∧ moment.before.offerBlock 1 1 = (.ok false, moment.after) ∧
      moment.after = moment.before.enlisted ⟨1⟩ 5 1 .oneShot) ∧
    (acceptances relay.recalled.history) = [(1, 1)] ∧
    ∃ final, relay.recalled.result = some (.ok (), final) ∧ final.time = 9 ∧
      AcceptedAt relay.recalled.history final 1 1 5 := by
  have calm : relay.recalling.Calm :=
    ⟨fun _ _ _ => trivial, fun _ _ => ⟨rfl, fun answer => by cases answer <;> trivial⟩⟩
  have retries : relay.recalling.Retries := fun _ _ => .offered fun error => .failed error
  have lived : relay.recalled.history = ((relay.impatient.bind fun _ =>
      .perform (.runUntil 9)).record (Network.recordRun relay.recalling 5)
        (.new {} (LatencyModel.fixed 2).latency ())).history := rfl
  have kept := Program.deferral_kept calm retries {} rfl (LatencyModel.fixed 2).latency ()
    relay.impatient 9 5 rfl lived
  have member : relay.recalled.history.get ⟨3, by decide +kernel⟩ ∈ relay.recalled.history :=
    List.get_mem ..
  obtain ⟨answered, enlisted, accepted⟩ := kept _ member 1 1 _ rfl (by decide) rfl rfl rfl
    (by decide)
  refine ⟨⟨_, member, rfl, rfl, answered, enlisted⟩, rfl, _, rfl, rfl, ?_⟩
  refine (accepted _ rfl (by decide) (by decide +kernel)).resolve_right ?_
  rintro ⟨allowed, -⟩
  cases allowed

/-! A retry that goes on when its offer fails -/

def relay.shrugging : Behaviour relay.recall where
  deliver _ _ _ := ExceptT.mk (.pure (.ok ()))
  fire retry owner := ExceptT.mk do
    let _ ← Program.perform (.offerBlock owner retry.block)
    return .ok ()

/-- The second block is of the same producer and height as the first one, and due at once. -/
def relay.rivalry : Program relay.recall (Except Error Bool) := do
  let _ ← Program.perform (.addNode (.new ⟨0, 0, none⟩ false) ())
  let _ ← Program.perform (.addNode (.new ⟨3, 4, none⟩ false) ())
  let _ ← Program.perform (.createBlock ⟨0, 0, 1, 5, true, ()⟩)
  let _ ← Program.perform (.createBlock ⟨0, 0, 1, 0, true, ()⟩)
  let _ ← Program.perform (.offerBlock 1 1)
  Program.perform (.offerBlock 1 2)

def relay.outrun : Recording relay.recall (Except Error Unit) :=
  (relay.rivalry.bind fun _ => .perform (.runUntil 9)).record
    (Network.recordRun relay.shrugging 5) (.new {} (LatencyModel.fixed 2).latency ())

theorem relay_deferral_lost :
    relay.shrugging.Calm ∧
    (∃ moment ∈ relay.outrun.history, moment.happening = .operated (.offerBlock 1 1) ∧
      moment.before.time = 0 ∧ moment.before.offerBlock 1 1 = (.ok false, moment.after)) ∧
    (∃ moment ∈ relay.outrun.history, moment.happening = .operated (.offerBlock 1 1) ∧
      moment.before.time = 5) ∧
    (∀ moment ∈ relay.outrun.history, moment.after.time = 5 →
      moment.after.isLive 1 = true) ∧
    ∃ final, relay.outrun.result = some (.ok (), final) ∧
      final.config.allowEquivocation = false ∧
      acceptances relay.outrun.history = [(1, 2)] ∧
      final.tree.hasReceived 1 1 = false := by
  refine ⟨⟨fun _ _ _ => trivial, fun _ _ => ⟨rfl, fun _ => trivial⟩⟩,
    ⟨relay.outrun.history.get ⟨4, by decide +kernel⟩, List.get_mem .., rfl, rfl, rfl⟩,
    ⟨relay.outrun.history.get ⟨8, by decide +kernel⟩, List.get_mem .., rfl, rfl⟩,
    by decide +kernel, _, rfl, rfl, rfl, rfl⟩

end Deferral

end Simnet
