import Simnet.Proofs.Adjacency

namespace Simnet

/-! What lies beside the traffic of a network: the ledger of its floods and the tree of
its blocks. Each belongs to a few operations, and whatever sends, schedules, divides or
edits nodes leaves both alone. -/

section Layers

variable {P : Protocol} {α : Type}

namespace Network

structure SameLayers (before after : Network P) : Prop where
  overlay : after.overlay = before.overlay
  tree : after.tree = before.tree

variable {network middle after : Network P}

theorem SameLayers.refl (network : Network P) : SameLayers network network :=
  ⟨rfl, rfl⟩

theorem SameLayers.trans (first : SameLayers network middle)
    (second : SameLayers middle after) : SameLayers network after where
  overlay := second.overlay.trans first.overlay
  tree := second.tree.trans first.tree

theorem tree_commitFate (message : P.Message) (sender : Nat) (network : Network P)
    (decision : Nat × Fate) :
    (commitFate message sender network decision).tree = network.tree := by
  obtain ⟨receiver, fate⟩ := decision
  cases fate <;> rfl

theorem sameLayers_commitFates (message : P.Message) (sender : Nat)
    (decisions : List (Nat × Fate)) (network : Network P) :
    SameLayers network (decisions.foldl (commitFate message sender) network) := by
  induction decisions generalizing network with
  | nil => exact .refl network
  | cons decision rest induction =>
      have first : SameLayers network (commitFate message sender network decision) :=
        ⟨overlay_commitFate message sender network decision,
          tree_commitFate message sender network decision⟩
      exact first.trans (induction _)

theorem sameLayers_sendToMany {message : P.Message} {origin sender : Nat}
    {receivers : List Nat} {outcome : Except Error Unit}
    (sent : network.sendToMany message origin sender receivers = (outcome, after)) :
    SameLayers network after := by
  unfold sendToMany at sent
  split at sent
  · cases sent
    exact .refl network
  · split at sent
    · cases sent
      exact .refl network
    · rename_i decisions rng _
      cases sent
      have drawn : SameLayers network { network with rng := rng } := ⟨rfl, rfl⟩
      exact drawn.trans (sameLayers_commitFates message sender decisions _)

theorem sameLayers_sendStaggered {network after : Network P} {message : P.Message}
    {sender delay departure : Nat} {receivers : List Nat} {outcome : Except Error Unit}
    (sent : sendStaggered message sender delay departure receivers network =
      (outcome, after)) : SameLayers network after := by
  induction receivers generalizing departure network with
  | nil =>
      cases sent
      exact .refl _
  | cons receiver rest induction =>
      unfold sendStaggered at sent
      split at sent
      · rename_i failed
        cases sent
        exact sameLayers_sendToMany failed
      · rename_i single
        exact (sameLayers_sendToMany single).trans (induction sent)

theorem sameLayers_updateNode {id : Nat} {change : Node P → Node P}
    {outcome : Except Error Unit}
    (updated : network.updateNode id change = (outcome, after)) :
    SameLayers network after := by
  unfold updateNode at updated
  split at updated <;> cases updated <;> exact ⟨rfl, rfl⟩

theorem sameLayers_schedule {task : P.Task} {start owner : Nat} {kind : Recurrence}
    {outcome : Except Error Nat}
    (scheduled : network.schedule task start owner kind = (outcome, after)) :
    SameLayers network after := by
  unfold schedule at scheduled
  split at scheduled
  · cases scheduled
    exact .refl network
  · split at scheduled
    · cases scheduled
      exact .refl network
    · split at scheduled <;> cases scheduled <;> exact ⟨rfl, rfl⟩

theorem sameLayers_installPartition {groups : List (List Nat)}
    {outcome : Except Error Unit}
    (installed : network.installPartition groups = (outcome, after)) :
    SameLayers network after := by
  unfold installPartition at installed
  split at installed <;> cases installed <;> exact ⟨rfl, rfl⟩

theorem sameLayers_partitionByPosition {fraction : Float} {outcome : Except Error Unit}
    (divided : network.partitionByPosition fraction = (outcome, after)) :
    SameLayers network after := by
  unfold partitionByPosition at divided
  split at divided
  · exact sameLayers_installPartition divided
  · cases divided
    exact .refl network

/-! The two layers leave each other alone. -/

theorem overlay_createBlock {proposal : BlockProposal P.Payload}
    {outcome : Except Error Nat}
    (created : network.createBlock proposal = (outcome, after)) :
    after.overlay = network.overlay := by
  unfold createBlock at created
  split at created
  · cases created
    rfl
  · split at created <;> cases created <;> rfl

theorem sameLayers_deferBlock {node : Nat} {block : Block P.Payload}
    {outcome : Except Error Bool}
    (deferred : network.deferBlock node block = (outcome, after)) :
    SameLayers network after := by
  unfold deferBlock at deferred
  split at deferred <;> rename_i registered <;> cases deferred <;>
    exact sameLayers_schedule registered

theorem overlay_acceptBlock {node : Nat} {block : Block P.Payload}
    {outcome : Except Error Bool}
    (accepted : network.acceptBlock node block = (outcome, after)) :
    after.overlay = network.overlay := by
  unfold acceptBlock at accepted
  split at accepted
  · split at accepted <;> cases accepted <;> rfl
  · cases accepted
    rfl

theorem overlay_offerBlock {node id : Nat} {outcome : Except Error Bool}
    (offered : network.offerBlock node id = (outcome, after)) :
    after.overlay = network.overlay := by
  unfold offerBlock at offered
  split at offered
  · cases offered
    rfl
  · split at offered
    · cases offered
      rfl
    · split at offered
      · cases offered
        rfl
      · split at offered
        · split at offered
          · exact overlay_acceptBlock offered
          · cases offered
            rfl
          · exact (sameLayers_deferBlock offered).overlay
        · exact overlay_acceptBlock offered

theorem tree_setPeers {config : OverlayConfig} {outcome : Except Error Unit}
    (set : network.setPeers config = (outcome, after)) : after.tree = network.tree := by
  unfold setPeers at set
  split at set <;> cases set <;> rfl

theorem tree_createLink {first second : Nat} {outcome : Except Error Bool}
    (linked : network.createLink first second = (outcome, after)) :
    after.tree = network.tree := by
  unfold createLink at linked
  split at linked <;> cases linked <;> rfl

theorem tree_removeLink {first second : Nat} {outcome : Except Error Bool}
    (removed : network.removeLink first second = (outcome, after)) :
    after.tree = network.tree := by
  unfold removeLink at removed
  split at removed <;> cases removed <;> rfl

end Network

namespace Op

/-- The operations on the overlay and on the tree, and the one that adds a node to both. -/
def isLayered : Op P → Bool
  | addNode _ _ | setPeers _ | createLink _ _ | removeLink _ _ => true
  | flood _ _ _ | receiveFlood _ _ _ _ => true
  | createBlock _ | offerBlock _ _ => true
  | _ => false

theorem sameLayers_perform {network after : Network P} {op : Op P} {answer : op.Answer}
    (quiet : op.isRun = false) (plain : op.isLayered = false)
    (performed : op.perform idle network = some (answer, after)) :
    Network.SameLayers network after := by
  cases op with
  | runUntil _ | runFor _ | runSeconds _ => cases quiet
  | addNode _ _ | setPeers _ | createLink _ _ | removeLink _ _ | flood _ _ _
  | receiveFlood _ _ _ _ | createBlock _ | offerBlock _ _ => cases plain
  | read | setRng _ | createNode _ _ | endPartition =>
      cases performed
      exact ⟨rfl, rfl⟩
  | setState _ _ | setLocation _ _ | setInfo _ _ | setDown _ _ | markDone _
  | disconnect _ => exact Network.sameLayers_updateNode (Option.some.inj performed)
  | sendToMany _ _ _ _ | sendAll _ _ _ =>
      exact Network.sameLayers_sendToMany (Option.some.inj performed)
  | schedule _ _ _ _ => exact Network.sameLayers_schedule (Option.some.inj performed)
  | partition _ => exact Network.sameLayers_installPartition (Option.some.inj performed)
  | partitionByPosition _ =>
      exact Network.sameLayers_partitionByPosition (Option.some.inj performed)

end Op

end Layers

end Simnet
