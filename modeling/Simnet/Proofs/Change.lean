import Mathlib.Logic.Relation
import Simnet.Network.Run

namespace Simnet

/-! What operations do to a network. Every operation that does not run it is made of
a few kinds of elementary changes, each with the checks that come before it, so a
property of all operations is proved once for every kind. -/

namespace NodeInfo

structure SameTraffic (first second : NodeInfo) : Prop where
  messagesSent : first.messagesSent = second.messagesSent
  messagesReceived : first.messagesReceived = second.messagesReceived
  bytesSent : first.bytesSent = second.bytesSent
  bytesReceived : first.bytesReceived = second.bytesReceived

theorem SameTraffic.refl (info : NodeInfo) : info.SameTraffic info :=
  ⟨rfl, rfl, rfl, rfl⟩

def IsFresh (info : NodeInfo) : Prop :=
  info.SameTraffic (.new info.location info.byzantine)

theorem sameTraffic_markDone (info : NodeInfo) (now : Nat) :
    (info.markDone now).SameTraffic info := by
  unfold markDone
  split
  · exact ⟨rfl, rfl, rfl, rfl⟩
  · exact .refl info

end NodeInfo

namespace Op

variable {P : Protocol}

def idle : Runner P := fun _ _ => none

theorem perform_idle {op : Op P} (quiet : op.isRun = false) (run : Runner P)
    (network : Network P) : op.perform run network = op.perform idle network := by
  cases op with
  | runUntil _ | runFor _ | runSeconds _ => cases quiet
  | _ => rfl

/-- The operation adds no node that comes with counts, and puts no other counts in the
place of those of a node. -/
def KeepsCounts (network : Network P) : Op P → Prop
  | addNode info _ => info.IsFresh
  | setInfo id info => ∀ node, network.node? id = some node → info.SameTraffic node.info
  | _ => True

end Op

namespace Network

variable {P : Protocol}

theorem node?_eq_none_iff {network : Network P} {id : Nat} :
    network.node? id = none ↔ network.nodeCount ≤ id :=
  List.getElem?_eq_none_iff

theorem lt_nodeCount_of_node? {network : Network P} {id : Nat} {node : Node P}
    (found : network.node? id = some node) : id < network.nodeCount := by
  obtain ⟨bound, -⟩ := List.getElem?_eq_some_iff.mp found
  exact bound

theorem node_eq_ok_iff {network : Network P} {id : Nat} {node : Node P} :
    network.node id = .ok node ↔ network.node? id = some node := by
  unfold Network.node
  cases network.node? id with
  | none => simp
  | some found => simp

@[simp] theorem nodeCount_modifyNode (network : Network P) (id : Nat)
    (change : Node P → Node P) :
    (network.modifyNode id change).nodeCount = network.nodeCount :=
  List.length_modify ..

theorem node?_modifyNode (network : Network P) (id other : Nat)
    (change : Node P → Node P) :
    (network.modifyNode id change).node? other =
      if id = other then (network.node? other).map change else network.node? other := by
  simp only [modifyNode, node?, List.getElem?_modify]
  split <;> simp

def joined (network : Network P) (info : NodeInfo) (state : P.State) : Network P :=
  { network with
    nodes := network.nodes ++ [⟨{ info with id := network.nodeCount }, state⟩]
    overlay := network.overlay.addNode
    tree := network.tree.addNode }

def enlisted (network : Network P) (task : P.Task) (start owner : Nat)
    (kind : Recurrence) : Network P :=
  { network with nextTask := network.nextTask + 1 }.pushTask start
    ⟨network.nextTask, owner, kind, task⟩

/-- The elementary changes. With `kept`, counts of nodes change by traffic only. -/
inductive Change (kept : Prop) : Network P → Network P → Prop
  | draw (network : Network P) (rng : Rng) :
      Change kept network { network with rng := rng }
  | join {network : Network P} {info : NodeInfo} (state : P.State)
      (early : network.started = false) (whole : network.partition = none)
      (room : network.nodeCount < maxNodes) (fresh : kept → info.IsFresh) :
      Change kept network (network.joined info state)
  | edit {network : Network P} {id : Nat} {change : Node P → Node P}
      (same : kept → ∀ node, network.node? id = some node →
        (change node).info.SameTraffic node.info) :
      Change kept network (network.modifyNode id change)
  | settle {network : Network P} (message : P.Message) {sender : Nat}
      {decision : Nat × Fate} (senderKnown : sender < network.nodeCount)
      (receiverKnown : decision.1 < network.nodeCount)
      (notPast : ∀ arrival, decision.2 = .deliver arrival → network.time ≤ arrival) :
      Change kept network (commitFate message sender network decision)
  | enlist {network : Network P} (task : P.Task) {start owner : Nat} {kind : Recurrence}
      (known : owner < network.nodeCount) (notPast : network.time ≤ start)
      (positive : kind.period? ≠ some 0) :
      Change kept network (network.enlisted task start owner kind)
  | divide {network : Network P} {state : Partition} {groups : List (List Nat)}
      (covers : Partition.ofGroups groups network.nodeCount = .ok state) :
      Change kept network { network with partition := some state }
  | heal (network : Network P) : Change kept network network.endPartition
  | link {network : Network P} {first second : Nat}
      (valid : network.checkPair first second = .ok ()) :
      Change kept network { network with overlay := network.overlay.link first second }
  | unlink {network : Network P} {first second : Nat}
      (valid : network.checkPair first second = .ok ()) :
      Change kept network { network with overlay := network.overlay.unlink first second }
  | build {network : Network P} {config : OverlayConfig}
      (valid : config.validate network.nodeCount = .ok ()) :
      Change kept network { network with
        overlay := (network.overlay.build config network.rng).1
        rng := (network.overlay.build config network.rng).2 }
  | mark {network : Network P} (messageId : Nat) {node : Nat}
      (known : node < network.nodeCount) :
      Change kept network (network.markSeen messageId node)
  | insert {network : Network P} {proposal : BlockProposal P.Payload} {id : Nat}
      {tree : BlockTree P.Payload} (known : proposal.producer < network.nodeCount)
      (inserted : network.tree.insert proposal = .ok (id, tree)) :
      Change kept network { network with tree := tree }
  | receive {network : Network P} {node id : Nat} {block : Block P.Payload}
      (known : node < network.nodeCount) (created : network.tree.block id = .ok block)
      (valid : block.valid = true) (new : network.tree.hasReceived node id = false)
      (alone : network.tree.conflicting block = none) :
      Change kept network (network.receiveBlock node block.id)

abbrev Changes (kept : Prop) : Network P → Network P → Prop :=
  Relation.ReflTransGen (Change kept)

variable {kept : Prop}

/-! Sends -/

@[simp] theorem nodeCount_commitFate (message : P.Message) (sender : Nat)
    (network : Network P) (decision : Nat × Fate) :
    (commitFate message sender network decision).nodeCount = network.nodeCount := by
  obtain ⟨receiver, fate⟩ := decision
  cases fate with
  | deliver arrival => simp [commitFate, nodeCount]
  | _ => rfl

@[simp] theorem time_commitFate (message : P.Message) (sender : Nat)
    (network : Network P) (decision : Nat × Fate) :
    (commitFate message sender network decision).time = network.time := by
  obtain ⟨receiver, fate⟩ := decision
  cases fate <;> rfl

theorem le_arrival_of_fate {network : Network P} {origin sender receiver : Nat}
    {rng after : Rng} {arrival : Nat}
    (decided : network.fate origin sender receiver rng = .ok (.deliver arrival, after)) :
    origin ≤ arrival := by
  unfold Network.fate at decided
  cases source : network.node sender with
  | error error => simp [source] at decided
  | ok sourceNode =>
      cases target : network.node receiver with
      | error error => simp [source, target] at decided
      | ok targetNode =>
          simp only [source, target] at decided
          split at decided
          · simp at decided
          · split at decided
            · simp at decided
            · split at decided
              · simp at decided
              · split at decided
                · simp at decided
                · rename_i arrives
                  simp only [Except.ok.injEq, Prod.mk.injEq, Fate.deliver.injEq] at decided
                  obtain ⟨rfl, -⟩ := decided
                  have := (timeAfter_eq_ok_iff.mp arrives).1
                  omega

/-- Every receiver gets a fate, in the order of the receivers, and nothing arrives
before it left. -/
theorem fates_spec {network : Network P} {origin sender : Nat} {receivers : List Nat}
    {rng after : Rng} {decisions : List (Nat × Fate)}
    (decided : network.fates origin sender receivers rng = .ok (decisions, after)) :
    decisions.map (·.1) = receivers ∧
      ∀ decision ∈ decisions, ∀ arrival, decision.2 = .deliver arrival →
        origin ≤ arrival := by
  induction receivers generalizing rng decisions with
  | nil =>
      simp only [fates, Except.ok.injEq, Prod.mk.injEq] at decided
      obtain ⟨rfl, -⟩ := decided
      simp
  | cons receiver rest induction =>
      simp only [fates] at decided
      split at decided
      · simp at decided
      · rename_i fate middle first
        split at decided
        · simp at decided
        · rename_i others last second
          simp only [Except.ok.injEq, Prod.mk.injEq] at decided
          obtain ⟨rfl, rfl⟩ := decided
          obtain ⟨receivers, later⟩ := induction second
          refine ⟨by simp [receivers], ?_⟩
          intro decision member arrival delivers
          rcases List.mem_cons.mp member with rfl | inOthers
          · simp only at delivers
            subst delivers
            exact le_arrival_of_fate first
          · exact later decision inOthers arrival delivers

theorem checkSend_ok {network : Network P} {origin sender : Nat} {receivers : List Nat}
    (checked : network.checkSend origin sender receivers = .ok ()) :
    network.time ≤ origin ∧ ∀ id ∈ sender :: receivers, id < network.nodeCount := by
  unfold checkSend at checked
  split at checked
  · simp at checked
  · rename_i notPast
    split at checked
    · simp at checked
    · rename_i allKnown
      refine ⟨by omega, ?_⟩
      intro id member
      have known := List.find?_eq_none.mp allKnown id member
      cases found : network.node? id with
      | none => simp [found] at known
      | some node => exact lt_nodeCount_of_node? found

theorem changes_commitFates (message : P.Message) {sender : Nat}
    {decisions : List (Nat × Fate)} {network : Network P}
    (senderKnown : sender < network.nodeCount)
    (receiversKnown : ∀ decision ∈ decisions, decision.1 < network.nodeCount)
    (notPast : ∀ decision ∈ decisions, ∀ arrival,
      decision.2 = .deliver arrival → network.time ≤ arrival) :
    Changes kept network (decisions.foldl (commitFate message sender) network) := by
  induction decisions generalizing network with
  | nil => exact .refl
  | cons decision rest induction =>
      refine .head (.settle message senderKnown (receiversKnown decision (by simp))
        (notPast decision (by simp))) ?_
      apply induction
      · simpa using senderKnown
      · intro other member
        simpa using receiversKnown other (List.mem_cons_of_mem decision member)
      · intro other member arrival delivers
        simpa using notPast other (List.mem_cons_of_mem decision member) arrival delivers

theorem changes_sendToMany {network after : Network P} {message : P.Message}
    {origin sender : Nat} {receivers : List Nat} {outcome : Except Error Unit}
    (sent : network.sendToMany message origin sender receivers = (outcome, after)) :
    Changes kept network after := by
  unfold sendToMany at sent
  split at sent
  · cases sent
    exact .refl
  · rename_i checked
    split at sent
    · cases sent
      exact .refl
    · rename_i decisions rng decided
      cases sent
      obtain ⟨notPast, known⟩ := checkSend_ok checked
      obtain ⟨receiversDecided, later⟩ := fates_spec decided
      refine .head (.draw network rng) ?_
      apply changes_commitFates message
      · exact known sender (by simp)
      · intro decision member
        refine known decision.1 (List.mem_cons_of_mem sender ?_)
        rw [← receiversDecided]
        exact List.mem_map_of_mem member
      · intro decision member arrival delivers
        exact Nat.le_trans notPast (later decision member arrival delivers)

/-! Floods -/

theorem changes_sendStaggered {message : P.Message} {sender delay departure : Nat}
    {receivers : List Nat} {network after : Network P} {outcome : Except Error Unit}
    (sent : sendStaggered message sender delay departure receivers network =
      (outcome, after)) : Changes kept network after := by
  induction receivers generalizing departure network with
  | nil =>
      cases sent
      exact .refl
  | cons receiver rest induction =>
      unfold sendStaggered at sent
      split at sent
      · rename_i error middle failed
        cases sent
        exact changes_sendToMany failed
      · rename_i middle succeeded
        exact .trans (changes_sendToMany succeeded) (induction sent)

theorem known_of_planFlood {network : Network P} {header : FloodHeader} {node : Nat}
    {sender : Option Nat} {plan : Option FloodPlan}
    (planned : network.planFlood header node sender = .ok plan) :
    node < network.nodeCount := by
  unfold planFlood at planned
  split at planned
  · simp at planned
  · rename_i found
    exact lt_nodeCount_of_node? (node_eq_ok_iff.mp found)

theorem changes_forwardFlood {network after : Network P} {message : P.Message}
    {header : FloodHeader} {node : Nat} {sender : Option Nat}
    {outcome : Except Error Bool}
    (forwarded : network.forwardFlood message header node sender = (outcome, after)) :
    Changes kept network after := by
  unfold forwardFlood at forwarded
  split at forwarded
  · cases forwarded
    exact .refl
  · cases forwarded
    exact .refl
  · rename_i plan planned
    dsimp only at forwarded
    split at forwarded <;> rename_i sending <;> cases forwarded <;>
      refine .head (.mark header.messageId (known_of_planFlood planned)) ?_ <;>
      split at sending
    · exact changes_sendToMany sending
    · exact .head (.draw _ _) (changes_sendStaggered sending)
    · exact changes_sendToMany sending
    · exact .head (.draw _ _) (changes_sendStaggered sending)

/-! All operations -/

theorem changes_updateNode {network after : Network P} {id : Nat}
    {change : Node P → Node P} {outcome : Except Error Unit}
    (changed : Change kept network (network.modifyNode id change))
    (updated : network.updateNode id change = (outcome, after)) :
    Changes kept network after := by
  unfold updateNode at updated
  split at updated
  · cases updated
    exact .refl
  · cases updated
    exact .single changed

theorem addNode_cases {network after : Network P} {info : NodeInfo} {state : P.State}
    {outcome : Except Error Nat} (added : network.addNode info state = (outcome, after)) :
    after = network ∨
      network.started = false ∧ network.partition = none ∧ network.nodeCount < maxNodes ∧
        after = network.joined info state := by
  unfold addNode at added
  dsimp only at added
  split at added
  · cases added
    exact .inl rfl
  · rename_i early
    split at added
    · cases added
      exact .inl rfl
    · rename_i whole
      split at added
      · cases added
        exact .inl rfl
      · rename_i room
        cases added
        exact .inr ⟨by simpa using early, by simpa using whole, by omega, rfl⟩

theorem changes_addNode {network after : Network P} {info : NodeInfo} {state : P.State}
    {outcome : Except Error Nat} (fresh : kept → info.IsFresh)
    (added : network.addNode info state = (outcome, after)) :
    Changes kept network after := by
  rcases addNode_cases added with rfl | ⟨early, whole, room, rfl⟩
  · exact .refl
  · exact .single (.join state early whole room fresh)

theorem changes_schedule {network after : Network P} {task : P.Task}
    {start owner : Nat} {kind : Recurrence} {outcome : Except Error Nat}
    (scheduled : network.schedule task start owner kind = (outcome, after)) :
    Changes kept network after := by
  unfold schedule at scheduled
  split at scheduled
  · cases scheduled
    exact .refl
  · rename_i found
    split at scheduled
    · cases scheduled
      exact .refl
    · rename_i notPast
      split at scheduled
      · cases scheduled
        exact .refl
      · rename_i positive
        cases scheduled
        exact .single (.enlist task (lt_nodeCount_of_node? found) (by omega) positive)

theorem changes_installPartition {network after : Network P} {groups : List (List Nat)}
    {outcome : Except Error Unit}
    (installed : network.installPartition groups = (outcome, after)) :
    Changes kept network after := by
  unfold installPartition at installed
  split at installed
  · cases installed
    exact .refl
  · rename_i covers
    cases installed
    exact .single (.divide covers)

theorem changes_createBlock {network after : Network P}
    {proposal : BlockProposal P.Payload} {outcome : Except Error Nat}
    (created : network.createBlock proposal = (outcome, after)) :
    Changes kept network after := by
  unfold createBlock at created
  split at created
  · cases created
    exact .refl
  · rename_i found
    split at created
    · cases created
      exact .refl
    · rename_i inserted
      cases created
      exact .single (.insert (lt_nodeCount_of_node? found) inserted)

theorem changes_deferBlock {network after : Network P} {node : Nat}
    {block : Block P.Payload} {outcome : Except Error Bool}
    (deferred : network.deferBlock node block = (outcome, after)) :
    Changes kept network after := by
  unfold deferBlock at deferred
  split at deferred <;> rename_i registered <;> cases deferred <;>
    exact changes_schedule registered

theorem changes_acceptBlock {network after : Network P} {node id : Nat}
    {block : Block P.Payload} {outcome : Except Error Bool}
    (known : node < network.nodeCount) (created : network.tree.block id = .ok block)
    (valid : block.valid = true) (new : network.tree.hasReceived node id = false)
    (accepted : network.acceptBlock node block = (outcome, after)) :
    Changes kept network after := by
  unfold acceptBlock at accepted
  split at accepted
  · split at accepted <;> cases accepted <;> exact .refl
  · rename_i alone
    cases accepted
    exact .single (.receive known created valid new alone)

theorem changes_offerBlock {network after : Network P} {node id : Nat}
    {outcome : Except Error Bool}
    (offered : network.offerBlock node id = (outcome, after)) :
    Changes kept network after := by
  unfold offerBlock at offered
  split at offered
  · cases offered
    exact .refl
  · rename_i found
    split at offered
    · cases offered
      exact .refl
    · rename_i block created
      split at offered
      · cases offered
        exact .refl
      · rename_i fit
        simp only [Bool.or_eq_true, Bool.not_eq_true', not_or, Bool.not_eq_false,
          Bool.not_eq_true] at fit
        obtain ⟨valid, new⟩ := fit
        have known := lt_nodeCount_of_node? found
        split at offered
        · split at offered
          · exact changes_acceptBlock known created valid new offered
          · cases offered
            exact .refl
          · exact changes_deferBlock offered
        · exact changes_acceptBlock known created valid new offered

theorem changes_partitionByPosition {network after : Network P} {fraction : Float}
    {outcome : Except Error Unit}
    (divided : network.partitionByPosition fraction = (outcome, after)) :
    Changes kept network after := by
  unfold partitionByPosition at divided
  split at divided
  · exact changes_installPartition divided
  · cases divided
    exact .refl

theorem changes_setPeers {network after : Network P} {config : OverlayConfig}
    {outcome : Except Error Unit} (set : network.setPeers config = (outcome, after)) :
    Changes kept network after := by
  unfold setPeers at set
  split at set
  · cases set
    exact .refl
  · rename_i valid
    cases set
    exact .single (.build valid)

theorem changes_createLink {network after : Network P} {first second : Nat}
    {outcome : Except Error Bool}
    (linked : network.createLink first second = (outcome, after)) :
    Changes kept network after := by
  unfold createLink at linked
  split at linked
  · cases linked
    exact .refl
  · rename_i valid
    cases linked
    exact .single (.link valid)

theorem changes_removeLink {network after : Network P} {first second : Nat}
    {outcome : Except Error Bool}
    (removed : network.removeLink first second = (outcome, after)) :
    Changes kept network after := by
  unfold removeLink at removed
  split at removed
  · cases removed
    exact .refl
  · rename_i valid
    cases removed
    exact .single (.unlink valid)

theorem changes_setDown {network after : Network P} {id : Nat} {down : Bool}
    {outcome : Except Error Unit} (set : network.setDown id down = (outcome, after)) :
    Changes kept network after := by
  refine changes_updateNode ?_ set
  exact .edit fun _ _ _ => ⟨rfl, rfl, rfl, rfl⟩

theorem changes_flood {network after : Network P} {message : P.Message}
    {header : FloodHeader} {origin : Nat} {outcome : Except Error Unit}
    (flooded : network.flood message header origin = (outcome, after)) :
    Changes kept network after := by
  unfold flood at flooded
  split at flooded <;> rename_i forwarded <;> cases flooded <;>
    exact changes_forwardFlood forwarded

theorem changes_perform {network after : Network P} {op : Op P} {answer : op.Answer}
    (quiet : op.isRun = false) (keeps : kept → op.KeepsCounts network)
    (performed : op.perform Op.idle network = some (answer, after)) :
    Changes kept network after := by
  cases op with
  | runUntil _ | runFor _ | runSeconds _ => cases quiet
  | read =>
      cases performed
      exact .refl
  | setRng rng =>
      cases performed
      exact .single (.draw network rng)
  | createNode placement byzantine =>
      cases performed
      exact .single (.draw network _)
  | addNode info state => exact changes_addNode keeps (Option.some.inj performed)
  | setState node state =>
      refine changes_updateNode ?_ (Option.some.inj performed)
      exact .edit fun _ _ _ => .refl _
  | setLocation node location =>
      refine changes_updateNode ?_ (Option.some.inj performed)
      exact .edit fun _ _ _ => ⟨rfl, rfl, rfl, rfl⟩
  | setInfo node info =>
      refine changes_updateNode ?_ (Option.some.inj performed)
      exact .edit keeps
  | setDown node down => exact changes_setDown (Option.some.inj performed)
  | markDone node =>
      refine changes_updateNode ?_ (Option.some.inj performed)
      exact .edit fun _ node _ => node.info.sameTraffic_markDone network.time
  | sendToMany message origin sender receivers =>
      exact changes_sendToMany (Option.some.inj performed)
  | sendAll message origin sender => exact changes_sendToMany (Option.some.inj performed)
  | schedule task start owner kind => exact changes_schedule (Option.some.inj performed)
  | partition groups => exact changes_installPartition (Option.some.inj performed)
  | partitionByPosition fraction =>
      exact changes_partitionByPosition (Option.some.inj performed)
  | endPartition =>
      cases performed
      exact .single (.heal network)
  | setPeers config => exact changes_setPeers (Option.some.inj performed)
  | createLink first second => exact changes_createLink (Option.some.inj performed)
  | removeLink first second => exact changes_removeLink (Option.some.inj performed)
  | disconnect node => exact changes_setDown (Option.some.inj performed)
  | flood message header origin => exact changes_flood (Option.some.inj performed)
  | receiveFlood message header sender receiver =>
      exact changes_forwardFlood (Option.some.inj performed)
  | createBlock proposal => exact changes_createBlock (Option.some.inj performed)
  | offerBlock node block => exact changes_offerBlock (Option.some.inj performed)

end Network

end Simnet
