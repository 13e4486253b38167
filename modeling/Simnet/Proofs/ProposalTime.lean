import Simnet.Proofs.Heads
import Simnet.Proofs.NestedRuns

namespace Simnet

/-! Blocks and the clock. The proposal time of a block is asked for only when the block is
offered, but a clock that never goes back makes of it a promise for ever after: what nodes
have received, what their heads are and what is listed at a height has had its time. -/

namespace BlockTree

variable {β : Type} {tree after : BlockTree β} {id now soon : Nat}

def Due (tree : BlockTree β) (now id : Nat) : Prop :=
  ∃ block, tree.block? id = some block ∧ block.proposalTime ≤ now

def Ripe (tree : BlockTree β) (now : Nat) : Prop :=
  ∀ id, tree.IsAccepted id → tree.Due now id

theorem Due.later (due : tree.Due now id) (forth : now ≤ soon) : tree.Due soon id := by
  obtain ⟨block, found, reached⟩ := due
  exact ⟨block, found, Nat.le_trans reached forth⟩

theorem Due.insert {proposal : BlockProposal β} {created : Nat} (due : tree.Due now id)
    (inserted : tree.insert proposal = .ok (created, after)) : after.Due now id := by
  obtain ⟨block, found, reached⟩ := due
  obtain ⟨_, -, -, blocks, -, -⟩ := insert_eq_ok inserted
  exact ⟨block, (block?_of_append blocks).mpr (.inl found), reached⟩

theorem ripe_new (payload : β) (now : Nat) : (new payload).Ripe now := by
  intro id accepted
  have isGenesis : id = genesisId := by
    simpa [new, IsAccepted, hasReceived] using accepted
  rw [isGenesis]
  exact ⟨_, rfl, Nat.zero_le now⟩

theorem Ripe.later (ripe : tree.Ripe now) (forth : now ≤ soon) : tree.Ripe soon :=
  fun id accepted => (ripe id accepted).later forth

/-- Only an acceptance has to be looked at; the genesis block is due from the start. -/
theorem Step.ripe {acceptance : Option (Nat × Nat)} (step : Step acceptance tree after)
    (coherent : tree.Coherent) (ripe : tree.Ripe now)
    (due : ∀ node id, acceptance = some (node, id) → tree.Due now id) : after.Ripe now := by
  cases step with
  | same => exact ripe
  | joined =>
      intro other accepted
      apply ripe other
      rcases accepted with genesis | ⟨node, received⟩
      · exact .inl genesis
      · rcases (hasReceived_addNode tree node other).mp received with old | ⟨-, genesis⟩
        · exact .inr ⟨node, old⟩
        · exact .inl genesis
  | created inserted =>
      intro other accepted
      obtain ⟨_, -, -, -, -, received⟩ := insert_eq_ok inserted
      refine (ripe other ?_).insert inserted
      unfold IsAccepted hasReceived at accepted ⊢
      rwa [received] at accepted
  | @accepted _ node id block head known found _ _ _ =>
      have number := coherent.numbered found
      intro other accepted
      rcases accepted with genesis | ⟨holder, received⟩
      · exact ripe other (.inl genesis)
      · rcases (hasReceived_receive known block.id holder other).mp received with
          old | ⟨-, new⟩
        · exact ripe other (.inr ⟨holder, old⟩)
        · rw [new, number]
          exact due node id rfl

end BlockTree

section ProposalTime

variable {P : Protocol}

namespace Network

variable {network after : Network P} {node id : Nat} {kept : Prop}

def withPolicy (network : Network P) (policy : EarlyBlockPolicy) : Network P :=
  { network with config := { network.config with earlyBlockPolicy := policy } }

/-! Offers of early blocks, and of all others -/

theorem due_of_offerBlock (guarded : network.config.earlyBlockPolicy ≠ .accept)
    (accepted : (network.offerBlock node id).1 = .ok true) :
    network.tree.Due network.time id := by
  unfold offerBlock at accepted
  split at accepted
  · cases accepted
  · split at accepted
    · cases accepted
    · rename_i block found
      rw [BlockTree.block_eq_ok_iff] at found
      split at accepted
      · cases accepted
      · split at accepted
        · split at accepted
          · rename_i unguarded
            exact absurd unguarded guarded
          · cases accepted
          · unfold deferBlock at accepted
            split at accepted <;> cases accepted
        · rename_i notEarly
          exact ⟨block, found, Nat.not_lt.mp notEarly⟩

theorem acceptBlock_withPolicy (network : Network P) (policy : EarlyBlockPolicy) (node : Nat)
    (block : Block P.Payload) :
    (network.withPolicy policy).acceptBlock node block =
      ((network.acceptBlock node block).1,
        (network.acceptBlock node block).2.withPolicy policy) := by
  have sameTree : (network.withPolicy policy).tree = network.tree := rfl
  have sameChoice : (network.withPolicy policy).config.allowEquivocation =
      network.config.allowEquivocation := rfl
  unfold acceptBlock
  rw [sameTree, sameChoice]
  cases network.tree.conflicting block with
  | none => rfl
  | some conflict =>
      dsimp only
      cases network.config.allowEquivocation with
      | true => rfl
      | false => rfl

theorem offerBlock_withPolicy (due : network.tree.Due network.time id)
    (policy : EarlyBlockPolicy) (node : Nat) :
    (network.withPolicy policy).offerBlock node id =
      ((network.offerBlock node id).1, (network.offerBlock node id).2.withPolicy policy) := by
  obtain ⟨block, found, reached⟩ := due
  have notEarly : ¬ network.time < block.proposalTime := Nat.not_lt.mpr reached
  have present : network.tree.block id = .ok block := BlockTree.block_eq_ok_iff.mpr found
  have sameNode : (network.withPolicy policy).node? node = network.node? node := rfl
  have sameTree : (network.withPolicy policy).tree = network.tree := rfl
  have sameTime : (network.withPolicy policy).time = network.time := rfl
  unfold offerBlock
  rw [sameNode, sameTree, sameTime, present]
  cases network.node? node with
  | none => rfl
  | some _ =>
      simp only [if_neg notEarly]
      split
      · rfl
      · exact acceptBlock_withPolicy network policy node block

/-! The configuration stays as it is -/

theorem Change.config (change : Change kept network after) :
    after.config = network.config := by
  cases change with
  | settle _ _ _ _ =>
      rename_i decision _ _ _
      obtain ⟨receiver, fate⟩ := decision
      cases fate <;> rfl
  | _ => rfl

theorem Changes.config (changes : Changes kept network after) :
    after.config = network.config := by
  induction changes with
  | refl => rfl
  | tail _ change induction => exact change.config.trans induction

@[simp] theorem config_countEvent (network : Network P) (event : Event P)
    (reaction : Reaction) : (network.countEvent event reaction).config = network.config := by
  cases event <;> cases reaction <;> rfl

end Network

variable {behaviour : Behaviour P} {good : Op P → Prop} {moment : Moment P}

theorem Moment.Lawful.config (lawful : moment.Lawful behaviour good) :
    moment.after.config = moment.before.config := by
  cases lawful with
  | operated quiet _ performed =>
      have changes : Network.Changes False _ _ :=
        Network.changes_perform quiet False.elim performed
      exact changes.config
  | began started =>
      obtain ⟨-, -, rfl⟩ := Network.start_eq_ok started
      rfl
  | took popped => exact Network.config_countEvent ..
  | rearmed _ _ _ | halted _ | finished _ => rfl

theorem Moment.Lawful.due_of_acceptance (lawful : moment.Lawful behaviour good)
    (guarded : moment.before.config.earlyBlockPolicy ≠ .accept) {node id : Nat}
    (accepts : moment.acceptance? = some (node, id)) :
    moment.before.tree.Due moment.before.time id := by
  cases lawful with
  | @operated before after op answer quiet _ performed =>
      cases op with
      | offerBlock holder offered =>
          simp only [Moment.acceptance?, Op.acceptance?, acceptanceOf] at accepts
          split at accepts
          · rename_i accepted
            cases accepts
            exact Network.due_of_offerBlock guarded accepted
          · cases accepts
      | _ => cases accepts
  | began _ | took _ | rearmed _ _ _ | halted _ | finished _ => cases accepts

variable {start stop : Network P} {past : List (Moment P)}

theorem Passes.ripe (passes : Passes (Moment.Lawful behaviour good) start past stop)
    (forth : ∀ moment ∈ past, moment.before.time ≤ moment.after.time)
    (guarded : start.config.earlyBlockPolicy ≠ .accept) (viewed : start.Viewed)
    (coherent : start.tree.Coherent) (ripe : start.tree.Ripe start.time) :
    stop.tree.Ripe stop.time := by
  have timed : Passes (fun moment => moment.Lawful behaviour good ∧
      moment.before.time ≤ moment.after.time) start past stop :=
    passes.of_forall_mem fun moment member lawful => ⟨lawful, forth moment member⟩
  obtain ⟨-, -, -, holds⟩ := timed.preserves (motive := fun _ network =>
    network.config.earlyBlockPolicy ≠ .accept ∧ network.Viewed ∧ network.tree.Coherent ∧
      network.tree.Ripe network.time) ⟨guarded, viewed, coherent, ripe⟩ <| by
    rintro earlier moment ⟨lawful, forth⟩ ⟨guarded, viewed, coherent, ripe⟩
    have step := lawful.step viewed
    refine ⟨?_, lawful.viewed viewed, step.coherent coherent, ?_⟩
    · rw [lawful.config]
      exact guarded
    · -- What is accepted now is due by the clock before the moment.
      have still : moment.after.tree.Ripe moment.before.time :=
        step.ripe coherent ripe fun node id accepts =>
          lawful.due_of_acceptance guarded accepts
      exact still.later forth
  exact holds

/-- Unless early blocks are accepted by choice, no network that a life comes to has accepted one
early. -/
theorem Program.none_early {α : Type} (calm : behaviour.Calm) (config : NetworkConfig)
    (guarded : config.earlyBlockPolicy ≠ .accept) (latency : Latency) (genesis : P.Payload)
    (life : Program P α) (fuel : Nat) {past rest : List (Moment P)}
    (lived : (life.record (Network.recordRun behaviour fuel)
      (.new config latency genesis)).history = past ++ rest)
    (network : Network P) (reached : network = stateAfter (.new config latency genesis) past) :
    (∀ node id, network.tree.hasReceived node id = true → network.tree.Due network.time id) ∧
    ((∀ tree first second,
        P.forkChoice tree first second = first ∨ P.forkChoice tree first second = second) →
      ∀ node < network.nodeCount, ∃ block,
        network.head node = .ok block ∧ block.proposalTime ≤ network.time) ∧
    (∀ height, ∀ block ∈ network.tree.blocksAtHeight height,
      block.proposalTime ≤ network.time) ∧
    ∀ policy node id, network.tree.Due network.time id →
      (network.withPolicy policy).offerBlock node id =
        ((network.offerBlock node id).1,
          (network.offerBlock node id).2.withPolicy policy) := by
  have lives : network.ReachedBy past :=
    reached ▸ .life behaviour config latency genesis life fuel lived
  obtain ⟨-, coherent, -⟩ := lives.guided (BlockTree.rule_true P.forkChoice)
  have passes := reached ▸ past_passes lived
  have ripe : network.tree.Ripe network.time := by
    obtain ⟨stop, punctual, -⟩ := life.life_punctual calm fuel (.new config latency genesis)
    rw [lived] at punctual
    have forth := passes.time_le rfl fun moment member =>
      (punctual.lawful moment (List.mem_append_left rest member)).forward
    exact passes.ripe forth guarded rfl (BlockTree.coherent_new genesis)
      (BlockTree.ripe_new genesis _)
  refine ⟨?_, ?_, ?_, ?_⟩
  · exact fun node id received => ripe id (.inr ⟨node, received⟩)
  · intro picks node known
    obtain ⟨head, isHead⟩ := lives.exists_head known
    have received := (lives.hasReceived_iff known).mpr
      (lives.head_spec (BlockTree.rule_picks picks) known isHead)
    obtain ⟨block, found, due⟩ := ripe head (.inr ⟨node, received⟩)
    refine ⟨block, ?_, due⟩
    rw [Network.head, isHead]
    exact BlockTree.block_eq_ok_iff.mpr found
  · intro height block member
    obtain ⟨accepted, -⟩ := BlockTree.mem_blocksAtHeight.mp member
    obtain ⟨id, listed, found⟩ := BlockTree.mem_acceptedBlocks.mp accepted
    obtain ⟨other, otherFound, due⟩ := ripe id ((coherent.held id).mp listed)
    rw [found] at otherFound
    cases otherFound
    exact due
  · exact fun policy node id due => Network.offerBlock_withPolicy due policy node

def relay.waiting : Program relay (Except Error Bool × Except Error Bool) := do
  let _ ← Program.perform (.addNode (.new ⟨0, 0, none⟩ false) ())
  let _ ← Program.perform (.createBlock ⟨0, 0, 1, 5, true, ()⟩)
  let early ← Program.perform (.offerBlock 0 1)
  let _ ← Program.perform (.runUntil 5)
  let again ← Program.perform (.offerBlock 0 1)
  pure (early, again)

def relay.waited : Network relay :=
  stateAfter relay.initial
    (relay.waiting.record (Network.recordRun relay.behaviour 3) relay.initial).history

theorem relay_none_early :
    (∃ network, relay.waiting.exec (Network.runUntil relay.behaviour 3) relay.initial =
      some ((.ok false, .ok true), network)) ∧
    relay.waited.time = 5 ∧ relay.waited.tree.hasReceived 0 1 = true ∧
    relay.waited.tree.Due 5 1 ∧
    ∃ block, relay.waited.head 0 = .ok block ∧ block.id = 1 ∧ block.proposalTime ≤ 5 := by
  obtain ⟨received, chosen, -, -⟩ :=
    Program.none_early relay_calm {} (by decide) (LatencyModel.fixed 2).latency ()
      relay.waiting 3 (List.append_nil _).symm relay.waited rfl
  obtain ⟨block, isHead, due⟩ := chosen BlockTree.longest_picks 0 (by decide)
  refine ⟨⟨_, rfl⟩, rfl, rfl, received 0 1 rfl, block, isHead, ?_, due⟩
  cases isHead
  rfl

end ProposalTime

end Simnet
