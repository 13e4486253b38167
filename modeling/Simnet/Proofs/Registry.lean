import Simnet.Proofs.Forwarding

namespace Simnet

/-! The registry of the nodes. Messages are counted at the nodes all the time, but what a
node is apart from these counts is changed by the few operations that edit nodes. -/

section Registry

variable {P : Protocol}

def Node.core (node : Node P) : Node P :=
  { node with info := { node.info with
      messagesSent := 0, messagesReceived := 0, bytesSent := 0, bytesReceived := 0 } }

namespace Op

def editsNodes : Op P → Bool
  | addNode _ _ => true
  | setState _ _ | setLocation _ _ | setInfo _ _ | setDown _ _ | markDone _ | disconnect _ => true
  | _ => false

/-- The id of no node is overwritten by another one. -/
def KeepsIds : Op P → Prop
  | setInfo id info => info.id = id
  | _ => True

end Op

namespace Network

def cores (network : Network P) : List (Node P) :=
  network.nodes.map Node.core

/-- Every node carries the id under which it is found. -/
def Registered (network : Network P) : Prop :=
  ∀ id node, network.node? id = some node → node.info.id = id

variable {network after : Network P}

theorem cores_of_nodes (same : after.nodes = network.nodes) : after.cores = network.cores := by
  rw [cores, cores, same]

theorem cores_of_modify {id : Nat} {change : Node P → Node P}
    (nodes : after.nodes = network.nodes.modify id change)
    (counts : ∀ node, (change node).core = node.core) : after.cores = network.cores := by
  apply List.ext_getElem?
  intro other
  rw [cores, cores, nodes, List.getElem?_map, List.getElem?_map, List.getElem?_modify]
  cases network.nodes[other]? with
  | none => rfl
  | some node =>
      by_cases same : id = other <;> simp [same, counts]

theorem cores_of_call {α : Type} {call : Outcome P α} {answer : Except Error α}
    (same : call.2.cores = network.cores) (called : some call = some (answer, after)) :
    after.cores = network.cores := by
  obtain rfl := Option.some.inj called
  exact same

theorem cores_commitFate (message : P.Message) (sender : Nat) (network : Network P)
    (decision : Nat × Fate) :
    (commitFate message sender network decision).cores = network.cores := by
  obtain ⟨receiver, fate⟩ := decision
  cases fate with
  | deliver arrival => exact cores_of_modify rfl fun _ => rfl
  | _ => rfl

theorem cores_commitFates (message : P.Message) (sender : Nat)
    (decisions : List (Nat × Fate)) (network : Network P) :
    (decisions.foldl (commitFate message sender) network).cores = network.cores := by
  induction decisions generalizing network with
  | nil => rfl
  | cons decision rest induction =>
      exact (induction _).trans (cores_commitFate message sender network decision)

theorem cores_sendToMany (network : Network P) (message : P.Message) (origin sender : Nat)
    (receivers : List Nat) :
    (network.sendToMany message origin sender receivers).2.cores = network.cores := by
  unfold sendToMany
  split
  · rfl
  · split
    · rfl
    · exact cores_commitFates message sender _ _

theorem cores_sendStaggered (message : P.Message) (sender delay departure : Nat)
    (receivers : List Nat) (network : Network P) :
    (sendStaggered message sender delay departure receivers network).2.cores =
      network.cores := by
  induction receivers generalizing departure network with
  | nil => rfl
  | cons receiver rest induction =>
      have single := network.cores_sendToMany message departure sender [receiver]
      unfold sendStaggered
      split <;> rename_i sent
      · rw [send] at sent
        rwa [sent] at single
      · rw [send] at sent
        rw [sent] at single
        exact (induction _ _).trans single

theorem cores_sendCopies (network : Network P) (message : P.Message) (header : FloodHeader)
    (node : Nat) (plan : FloodPlan) :
    (network.sendCopies message header node plan).2.cores = network.cores := by
  unfold sendCopies
  split
  · exact cores_sendToMany ..
  · exact cores_sendStaggered ..

theorem cores_forwardFlood (network : Network P) (message : P.Message) (header : FloodHeader)
    (node : Nat) (source : Option Nat) :
    (network.forwardFlood message header node source).2.cores = network.cores := by
  have copies : ∀ plan, ((network.markSeen header.messageId node).sendCopies message header
      node plan).2.cores = network.cores :=
    fun plan => cores_sendCopies ..
  cases called : network.forwardFlood message header node source with
  | mk outcome after =>
      cases forwards_of_forwardFlood called with
      | refused | ignored => rfl
      | @passed plan _ _ sent | @broken plan _ _ _ sent =>
          have same := copies plan
          rwa [sent] at same

theorem cores_flood (network : Network P) (message : P.Message) (header : FloodHeader)
    (origin : Nat) : (network.flood message header origin).2.cores = network.cores := by
  have forwarded := network.cores_forwardFlood message header origin none
  unfold flood
  split <;> rename_i call <;> rwa [call] at forwarded

/-! Operations that leave the nodes alone -/

theorem nodes_schedule (network : Network P) (task : P.Task) (start owner : Nat)
    (kind : Recurrence) :
    (network.schedule task start owner kind).2.nodes = network.nodes := by
  unfold schedule
  split
  · rfl
  · split
    · rfl
    · split <;> rfl

theorem nodes_installPartition (network : Network P) (groups : List (List Nat)) :
    (network.installPartition groups).2.nodes = network.nodes := by
  unfold installPartition
  split <;> rfl

theorem nodes_partitionByPosition (network : Network P) (fraction : Float) :
    (network.partitionByPosition fraction).2.nodes = network.nodes := by
  unfold partitionByPosition
  split
  · exact nodes_installPartition ..
  · rfl

theorem nodes_setPeers (network : Network P) (config : OverlayConfig) :
    (network.setPeers config).2.nodes = network.nodes := by
  unfold setPeers
  split <;> rfl

theorem nodes_createLink (network : Network P) (first second : Nat) :
    (network.createLink first second).2.nodes = network.nodes := by
  unfold createLink
  split <;> rfl

theorem nodes_removeLink (network : Network P) (first second : Nat) :
    (network.removeLink first second).2.nodes = network.nodes := by
  unfold removeLink
  split <;> rfl

theorem nodes_createBlock (network : Network P) (proposal : BlockProposal P.Payload) :
    (network.createBlock proposal).2.nodes = network.nodes := by
  unfold createBlock
  split
  · rfl
  · split <;> rfl

theorem nodes_acceptBlock (network : Network P) (node : Nat) (block : Block P.Payload) :
    (network.acceptBlock node block).2.nodes = network.nodes := by
  unfold acceptBlock
  split
  · split <;> rfl
  · rfl

theorem nodes_deferBlock (network : Network P) (node : Nat) (block : Block P.Payload) :
    (network.deferBlock node block).2.nodes = network.nodes := by
  have scheduled := network.nodes_schedule (P.retry ⟨block.id⟩) block.proposalTime node .oneShot
  unfold deferBlock
  split <;> rename_i registered <;> rw [registerTask] at registered <;>
    rwa [registered] at scheduled

theorem nodes_offerBlock (network : Network P) (node id : Nat) :
    (network.offerBlock node id).2.nodes = network.nodes := by
  unfold offerBlock
  split
  · rfl
  · split
    · rfl
    · split
      · rfl
      · split
        · split
          · exact nodes_acceptBlock ..
          · rfl
          · exact nodes_deferBlock ..
        · exact nodes_acceptBlock ..

end Network

namespace Op

variable {network after : Network P} {op : Op P} {answer : op.Answer}

theorem cores_perform (quiet : op.isRun = false) (plain : op.editsNodes = false)
    (performed : op.perform idle network = some (answer, after)) :
    after.cores = network.cores := by
  cases op with
  | runUntil _ | runFor _ | runSeconds _ => cases quiet
  | addNode _ _ | setState _ _ | setLocation _ _ | setInfo _ _ | setDown _ _ | markDone _
      | disconnect _ => cases plain
  | read | setRng _ | createNode _ _ | endPartition =>
      cases performed
      rfl
  | sendToMany _ _ _ _ | sendAll _ _ _ =>
      exact Network.cores_of_call (Network.cores_sendToMany ..) performed
  | flood _ _ _ => exact Network.cores_of_call (Network.cores_flood ..) performed
  | receiveFlood _ _ _ _ =>
      exact Network.cores_of_call (Network.cores_forwardFlood ..) performed
  | schedule _ _ _ _ =>
      exact Network.cores_of_call (Network.cores_of_nodes (Network.nodes_schedule ..)) performed
  | partition _ =>
      exact Network.cores_of_call (Network.cores_of_nodes (Network.nodes_installPartition ..))
        performed
  | partitionByPosition _ =>
      exact Network.cores_of_call (Network.cores_of_nodes (Network.nodes_partitionByPosition ..))
        performed
  | setPeers _ =>
      exact Network.cores_of_call (Network.cores_of_nodes (Network.nodes_setPeers ..)) performed
  | createLink _ _ =>
      exact Network.cores_of_call (Network.cores_of_nodes (Network.nodes_createLink ..)) performed
  | removeLink _ _ =>
      exact Network.cores_of_call (Network.cores_of_nodes (Network.nodes_removeLink ..)) performed
  | createBlock _ =>
      exact Network.cores_of_call (Network.cores_of_nodes (Network.nodes_createBlock ..)) performed
  | offerBlock _ _ =>
      exact Network.cores_of_call (Network.cores_of_nodes (Network.nodes_offerBlock ..)) performed

end Op

namespace Network

variable {network after : Network P}

theorem node?_of_cores (same : after.cores = network.cores) {id : Nat} {node : Node P}
    (found : network.node? id = some node) :
    ∃ later, after.node? id = some later ∧ later.core = node.core := by
  have core : after.cores[id]? = some node.core := by
    rw [same, cores, List.getElem?_map]
    exact congrArg (Option.map Node.core) found
  rwa [cores, List.getElem?_map, Option.map_eq_some_iff] at core

theorem Registered.ids_filter (registered : network.Registered) (keep : Node P → Bool) :
    (network.nodes.filter keep).map (·.info.id) =
      (List.range network.nodeCount).filter fun id => (network.node? id).any keep := by
  have ids : network.nodes.map (·.info.id) = List.range network.nodeCount := by
    refine List.ext_getElem (by simp [nodeCount]) fun id inside _ => ?_
    rw [List.getElem_map, List.getElem_range]
    exact registered id _ (List.getElem?_eq_getElem (by simpa using inside))
  have kept : ∀ node ∈ network.nodes, keep node = (network.node? node.info.id).any keep := by
    intro node member
    obtain ⟨id, found⟩ := List.getElem?_of_mem member
    have present : network.node? id = some node := found
    rw [registered id node present, present, Option.any_some]
  rw [List.filter_congr kept, ← ids, List.filter_map]
  rfl

theorem Registered.of_cores (registered : network.Registered)
    (same : after.cores = network.cores) : after.Registered := by
  intro id node found
  obtain ⟨earlier, present, sameCore⟩ := node?_of_cores same.symm found
  rw [← registered id earlier present]
  exact (congrArg (fun node => node.info.id) sameCore).symm

theorem Registered.modifyNode (registered : network.Registered) {id : Nat}
    {change : Node P → Node P}
    (keeps : ∀ node, network.node? id = some node → (change node).info.id = id) :
    (network.modifyNode id change).Registered := by
  intro other node found
  rw [node?_modifyNode] at found
  split at found
  · rename_i same
    subst same
    obtain ⟨earlier, present, rfl⟩ := Option.map_eq_some_iff.mp found
    exact keeps earlier present
  · exact registered other node found

theorem Registered.updateNode (registered : network.Registered) {id : Nat}
    {change : Node P → Node P} {outcome : Except Error Unit}
    (updated : network.updateNode id change = (outcome, after))
    (keeps : ∀ node, network.node? id = some node → (change node).info.id = id) :
    after.Registered := by
  unfold Network.updateNode at updated
  split at updated <;> cases updated
  · exact registered
  · exact registered.modifyNode keeps

theorem Registered.joined (registered : network.Registered) (info : NodeInfo)
    (state : P.State) : (network.joined info state).Registered := by
  intro id node found
  simp only [Network.joined, node?, List.getElem?_append] at found
  split at found
  · exact registered id node found
  · rename_i beyond
    rw [List.getElem?_singleton] at found
    split at found
    · rename_i last
      cases found
      exact Nat.le_antisymm (Nat.not_lt.mp beyond) (Nat.sub_eq_zero_iff_le.mp last)
    · cases found

theorem id_markDone (info : NodeInfo) (now : Nat) : (info.markDone now).id = info.id := by
  unfold NodeInfo.markDone
  split <;> rfl

end Network

variable {network after : Network P}

theorem Op.registered_perform {op : Op P} {answer : op.Answer} (quiet : op.isRun = false)
    (keeps : op.KeepsIds) (registered : network.Registered)
    (performed : op.perform idle network = some (answer, after)) : after.Registered := by
  cases plain : op.editsNodes with
  | false => exact registered.of_cores (cores_perform quiet plain performed)
  | true =>
      -- Of the operations that edit a node, one alone writes an id.
      cases op with
      | addNode info state =>
          rcases Network.addNode_cases (Option.some.inj performed) with
            rfl | ⟨-, -, -, rfl⟩
          · exact registered
          · exact registered.joined info state
      | setInfo id info =>
          exact registered.updateNode (Option.some.inj performed) fun _ _ => keeps
      | markDone id =>
          exact registered.updateNode (Option.some.inj performed) fun node found =>
            (Network.id_markDone node.info network.time).trans (registered id node found)
      | setState id _ | setLocation id _ | setDown id _ | disconnect id =>
          exact registered.updateNode (Option.some.inj performed) fun node found =>
            registered id node found
      | _ => cases plain

variable {behaviour : Behaviour P} {moment : Moment P}

theorem Network.cores_countEvent (network : Network P) (event : Event P)
    (reaction : Reaction) : (network.countEvent event reaction).cores = network.cores := by
  cases event with
  | task _ => cases reaction <;> rfl
  | delivery _ _ _ =>
      cases reaction with
      | acted _ => exact cores_of_modify rfl fun _ => rfl
      | _ => rfl

theorem Moment.Lawful.registered (lawful : moment.Lawful behaviour Op.KeepsIds)
    (registered : moment.before.Registered) : moment.after.Registered := by
  cases lawful with
  | operated quiet keeps performed => exact Op.registered_perform quiet keeps registered performed
  | began started =>
      obtain ⟨-, -, rfl⟩ := Network.start_eq_ok started
      exact registered.of_cores rfl
  | took _ => exact registered.of_cores (Network.cores_countEvent ..)
  | rearmed _ _ _ | halted _ | finished _ => exact registered.of_cores rfl

theorem Passes.registered {start stop : Network P} {past : List (Moment P)}
    (passes : Passes (Moment.Lawful behaviour Op.KeepsIds) start past stop)
    (registered : start.Registered) : stop.Registered :=
  passes.preserves (motive := fun _ network => network.Registered) registered
    fun _ _ lawful => lawful.registered

theorem relay_keepsIds : relay.behaviour.All Op.KeepsIds := by
  constructor
  · intro hops sender receiver
    cases hops with
    | zero => trivial
    | succ hops => exact ⟨trivial, fun _ => ⟨trivial, fun _ => trivial⟩⟩
  · intro task owner
    trivial

end Registry

end Simnet
