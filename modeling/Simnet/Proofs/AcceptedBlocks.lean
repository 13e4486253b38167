import Simnet.Proofs.BlockIndex
import Simnet.Proofs.Forwarding

namespace Simnet

/-! Offers of blocks in the life of a network. What an operation does to the tree is a step
of the tree, and a block is received exactly when an offer of it is answered with true. -/

section AcceptedBlocks

variable {P : Protocol}

def acceptanceOf (node id : Nat) : Except Error Bool → Option (Nat × Nat)
  | .ok true => some (node, id)
  | _ => none

def Op.acceptance? (network : Network P) : Op P → Option (Nat × Nat)
  | offerBlock node id => acceptanceOf node id (network.offerBlock node id).1
  | _ => none

def Moment.acceptance? (moment : Moment P) : Option (Nat × Nat) :=
  match moment.happening with
  | .operated op => op.acceptance? moment.before
  | _ => none

/-- The offers that were accepted, as pairs of a node and a block. -/
def acceptances (past : List (Moment P)) : List (Nat × Nat) :=
  past.flatMap (·.acceptance?.toList)

namespace Network

variable {network after : Network P} {outcome : Except Error Bool} {node id : Nat}
variable {block : Block P.Payload}

def Viewed (network : Network P) : Prop :=
  network.tree.received.length = network.nodeCount

theorem Change.viewed {kept : Prop} (change : Change kept network after)
    (viewed : network.Viewed) : after.Viewed := by
  unfold Viewed at *
  cases change with
  | draw | enlist | divide | heal | link | unlink | build | mark => exact viewed
  | edit _ =>
      rw [nodeCount_modifyNode]
      exact viewed
  | settle =>
      rw [tree_commitFate, nodeCount_commitFate]
      exact viewed
  | join => simpa [joined, BlockTree.addNode, nodeCount] using viewed
  | insert _ inserted =>
      obtain ⟨block, -, -, -, -, received⟩ := BlockTree.insert_eq_ok inserted
      rw [received]
      exact viewed
  | receive => exact (List.length_modify ..).trans viewed

theorem Changes.viewed {kept : Prop} (changes : Changes kept network after)
    (viewed : network.Viewed) : after.Viewed := by
  induction changes with
  | refl => exact viewed
  | tail _ change induction => exact change.viewed induction

theorem step_acceptBlock (known : node < network.tree.received.length)
    (found : network.tree.block? id = some block) (valid : block.valid = true)
    (new : network.tree.hasReceived node id = false)
    (accepted : network.acceptBlock node block = (outcome, after)) :
    BlockTree.Step (acceptanceOf node id outcome) network.tree after.tree := by
  unfold acceptBlock at accepted
  split at accepted
  · split at accepted <;> cases accepted <;> exact .same network.tree
  · rename_i alone
    cases accepted
    exact .accepted _ known found valid new alone

theorem step_offerBlock (viewed : network.Viewed)
    (offered : network.offerBlock node id = (outcome, after)) :
    BlockTree.Step (acceptanceOf node id outcome) network.tree after.tree := by
  unfold offerBlock at offered
  split at offered
  · cases offered
    exact .same network.tree
  · rename_i present
    have known : node < network.tree.received.length := by
      rw [viewed]
      exact lt_nodeCount_of_node? present
    split at offered
    · cases offered
      exact .same network.tree
    · rename_i block found
      rw [BlockTree.block_eq_ok_iff] at found
      split at offered
      · cases offered
        exact .same network.tree
      · rename_i fit
        simp only [Bool.or_eq_true, Bool.not_eq_true', not_or, Bool.not_eq_false,
          Bool.not_eq_true] at fit
        obtain ⟨valid, new⟩ := fit
        split at offered
        · split at offered
          · exact step_acceptBlock known found valid new offered
          · cases offered
            exact .same network.tree
          · have same := (sameLayers_deferBlock offered).tree
            unfold deferBlock at offered
            split at offered <;> cases offered <;> exact .of_same same
        · exact step_acceptBlock known found valid new offered

end Network

theorem Op.step_perform {network after : Network P} {op : Op P} {answer : op.Answer}
    (quiet : op.isRun = false) (viewed : network.Viewed)
    (performed : op.perform idle network = some (answer, after)) :
    BlockTree.Step (op.acceptance? network) network.tree after.tree := by
  cases op with
  | addNode info state =>
      rcases Network.addNode_cases (Option.some.inj performed) with rfl | ⟨-, -, -, rfl⟩
      · exact .same after.tree
      · exact .joined network.tree
  | createBlock proposal =>
      have created := Option.some.inj performed
      unfold Network.createBlock at created
      split at created
      · cases created
        exact .same network.tree
      · split at created
        · cases created
          exact .same network.tree
        · rename_i inserted
          cases created
          exact .created inserted
  | offerBlock node id =>
      have offered : network.offerBlock node id = (answer, after) := Option.some.inj performed
      have step := Network.step_offerBlock viewed offered
      rw [acceptance?, offered]
      exact step
  | setPeers config => exact .of_same (Network.tree_setPeers (Option.some.inj performed))
  | createLink first second =>
      exact .of_same (Network.tree_createLink (Option.some.inj performed))
  | removeLink first second =>
      exact .of_same (Network.tree_removeLink (Option.some.inj performed))
  | flood message header origin =>
      have flooded := Option.some.inj performed
      unfold Network.flood at flooded
      split at flooded <;> rename_i forwarded <;> cases flooded <;>
        exact .of_same (Network.tree_forwardFlood forwarded)
  | receiveFlood message header sender receiver =>
      exact .of_same (Network.tree_forwardFlood (Option.some.inj performed))
  | _ => exact .of_same (sameLayers_perform quiet rfl performed).tree

variable {behaviour : Behaviour P} {good : Op P → Prop} {moment : Moment P}

theorem Moment.Lawful.step (lawful : moment.Lawful behaviour good)
    (viewed : moment.before.Viewed) :
    BlockTree.Step moment.acceptance? moment.before.tree moment.after.tree := by
  cases lawful with
  | operated quiet _ performed => exact Op.step_perform quiet viewed performed
  | began started =>
      obtain ⟨-, -, rfl⟩ := Network.start_eq_ok started
      exact .same _
  | took popped => exact .of_same (Network.tree_countEvent ..)
  | rearmed _ _ _ | halted _ | finished _ => exact .same _

theorem Moment.Lawful.viewed (lawful : moment.Lawful behaviour good)
    (viewed : moment.before.Viewed) : moment.after.Viewed := by
  unfold Network.Viewed at *
  cases lawful with
  | operated quiet _ performed =>
      have changes : Network.Changes False _ _ :=
        Network.changes_perform quiet False.elim performed
      exact changes.viewed viewed
  | began started =>
      obtain ⟨-, -, rfl⟩ := Network.start_eq_ok started
      exact viewed
  | took popped =>
      rw [Network.tree_countEvent, Network.nodeCount_countEvent]
      exact viewed
  | rearmed _ _ _ | halted _ | finished _ => exact viewed

theorem Passes.receipts {start stop : Network P} {past : List (Moment P)}
    (passes : Passes (Moment.Lawful behaviour good) start past stop)
    (viewed : start.Viewed) (coherent : start.tree.Coherent)
    (receipts : BlockTree.Receipts [] start.tree) :
    stop.Viewed ∧ stop.tree.Coherent ∧ BlockTree.Receipts (acceptances past) stop.tree := by
  refine passes.preserves (motive := fun past network => network.Viewed ∧
    network.tree.Coherent ∧ BlockTree.Receipts (acceptances past) network.tree)
    ⟨viewed, coherent, receipts⟩ ?_
  rintro past moment lawful ⟨viewed, coherent, receipts⟩
  have step := lawful.step viewed
  refine ⟨lawful.viewed viewed, step.coherent coherent, ?_⟩
  rw [acceptances, List.flatMap_append, List.flatMap_singleton]
  exact step.receipts coherent receipts

/-- In every network that a life comes to, the index of the accepted blocks is that of the blocks
that the nodes have received. -/
theorem Program.blocks_indexed {α : Type} (behaviour : Behaviour P) (config : NetworkConfig)
    (latency : Latency) (genesis : P.Payload) (life : Program P α) (fuel : Nat)
    {past rest : List (Moment P)}
    (lived : (life.record (Network.recordRun behaviour fuel)
      (.new config latency genesis)).history = past ++ rest) :
    (stateAfter (.new config latency genesis) past).tree.Indexed ∧
      (acceptances past).Nodup ∧
      ∀ node < (stateAfter (.new config latency genesis) past).nodeCount,
        (stateAfter (.new config latency genesis) past).tree.receivedCount node =
          1 + (acceptances past).countP (·.1 = node) := by
  obtain ⟨viewed, coherent, receipts⟩ :=
    (past_passes lived).receipts rfl (BlockTree.coherent_new genesis) ⟨nofun, nofun, .nil⟩
  refine ⟨coherent.indexed, receipts.distinct, ?_⟩
  intro node known
  rw [← viewed] at known
  unfold BlockTree.receivedCount
  rw [receipts.received node known, Option.getD_some, List.length_cons, List.length_map,
    List.countP_eq_length_filter, Nat.add_comm]

def relay.fork : Program relay (Except Error Bool) := do
  let _ ← Program.perform (.addNode (.new ⟨0, 0, none⟩ false) ())
  let _ ← Program.perform (.addNode (.new ⟨3, 4, none⟩ false) ())
  let _ ← Program.perform (.createBlock ⟨0, 0, 1, 0, true, ()⟩)
  let _ ← Program.perform (.createBlock ⟨0, 0, 1, 0, true, ()⟩)
  let _ ← Program.perform (.offerBlock 0 1)
  let _ ← Program.perform (.offerBlock 1 2)
  Program.perform (.offerBlock 1 1)

def relay.forked : List (Moment relay) :=
  (relay.fork.record (Network.recordRun relay.behaviour 0) relay.initial).history

theorem relay_blocks_indexed :
    acceptances relay.forked = [(0, 1), (1, 1)] ∧
    (stateAfter relay.initial relay.forked).tree.length = 3 ∧
    (stateAfter relay.initial relay.forked).tree.Indexed ∧
    (stateAfter relay.initial relay.forked).tree.receivedCount 1 = 1 + 1 := by
  obtain ⟨indexed, -, count⟩ :=
    Program.blocks_indexed relay.behaviour {} (LatencyModel.fixed 2).latency () relay.fork 0
      (List.append_nil _).symm
  exact ⟨rfl, rfl, indexed, count 1 (by decide)⟩

end AcceptedBlocks

end Simnet
