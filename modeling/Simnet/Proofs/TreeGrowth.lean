import Simnet.Proofs.AcceptedBlocks
import Simnet.Proofs.Lineage

namespace Simnet

/-! The tree of blocks only grows. Every step of it leaves the blocks that there are as they
are, and adds to the lists of children, to the index and to what the nodes have received. -/

namespace BlockTree

variable {β : Type} {tree middle after : BlockTree β} {id parent : Nat} {block : Block β}

theorem mem_childrenOf :
    id ∈ tree.childrenOf parent ↔
      ∃ block, tree.block? id = some block ∧ block.parent = some parent := by
  rw [childrenOf, List.mem_filter, List.mem_range, decide_eq_true_eq, parent?,
    Option.bind_eq_some_iff]
  constructor
  · exact And.right
  · rintro ⟨block, found, names⟩
    exact ⟨lt_length_of_block? found, block, found, names⟩

theorem childrenOf_increasing (tree : BlockTree β) (parent : Nat) :
    (tree.childrenOf parent).Pairwise (· < ·) :=
  List.pairwise_lt_range.filter _

theorem Lineage.children_eq (lineage : tree.Lineage) (known : parent < tree.length) :
    tree.children parent = .ok (tree.childrenOf parent) := by
  rw [children, lineage.listed, List.getElem?_map, List.getElem?_range known]
  rfl

structure Extends (tree after : BlockTree β) : Prop where
  blocks : tree.blocks <+: after.blocks
  children : ∀ {parent children}, tree.children parent = .ok children →
    ∃ longer, after.children parent = .ok longer ∧ children <+: longer
  heights : ∀ height, tree.blocksAtHeight height <+: after.blocksAtHeight height
  received : ∀ {node id}, tree.hasReceived node id = true → after.hasReceived node id = true

theorem Extends.refl (tree : BlockTree β) : tree.Extends tree where
  blocks := List.prefix_refl _
  children found := ⟨_, found, List.prefix_refl _⟩
  heights _ := List.prefix_refl _
  received has := has

theorem Extends.trans (first : tree.Extends middle) (second : middle.Extends after) :
    tree.Extends after where
  blocks := first.blocks.trans second.blocks
  children found := by
    obtain ⟨longer, later, before⟩ := first.children found
    obtain ⟨longest, last, between⟩ := second.children later
    exact ⟨longest, last, before.trans between⟩
  heights height := (first.heights height).trans (second.heights height)
  received has := second.received (first.received has)

theorem Extends.block? (grows : tree.Extends after) (found : tree.block? id = some block) :
    after.block? id = some block := by
  obtain ⟨more, appended⟩ := grows.blocks
  rw [BlockTree.block?, ← appended]
  exact (List.getElem?_append_left (lt_length_of_block? found)).trans found

theorem extends_addNode (tree : BlockTree β) : tree.Extends tree.addNode where
  blocks := List.prefix_refl _
  children found := ⟨_, found, List.prefix_refl _⟩
  heights _ := List.prefix_refl _
  received has := (hasReceived_addNode ..).mpr (.inl has)

theorem children_eq_ok_iff {children : List Nat} :
    tree.children parent = .ok children ↔ tree.childLists[parent]? = some children := by
  rw [BlockTree.children]
  cases tree.childLists[parent]? with
  | none => simp
  | some found => simp

theorem Coherent.extends_insert (coherent : tree.Coherent) {proposal : BlockProposal β}
    (inserted : tree.insert proposal = .ok (id, after)) : tree.Extends after where
  blocks := by
    obtain ⟨block, -, -, blocks, -⟩ := insert_eq_ok inserted
    rw [blocks]
    exact List.prefix_append ..
  children {parent children} found := by
    obtain ⟨above, created, -, -, -, -, isAfter⟩ := insert_eq_ok_iff.mp inserted
    rw [children_eq_ok_iff] at found
    obtain ⟨known, -⟩ := List.getElem?_eq_some_iff.mp found
    simp only [children_eq_ok_iff, isAfter, List.getElem?_modify,
      List.getElem?_append_left known, found]
    refine ⟨if proposal.parent = parent then children ++ [tree.length] else children, rfl, ?_⟩
    split
    · exact List.prefix_append ..
    · exact List.prefix_refl _
  heights height := by
    rw [blocksAtHeight, blocksAtHeight, coherent.acceptedBlocks_insert inserted]
  received {node id} has := by
    obtain ⟨block, -, -, -, -, received⟩ := insert_eq_ok inserted
    rw [hasReceived, received]
    exact has

theorem extends_receive {node : Nat} (known : node < tree.received.length) (id head : Nat) :
    tree.Extends ((tree.receive node id).setHead node head) where
  blocks := List.prefix_refl _
  children found := ⟨_, found, List.prefix_refl _⟩
  heights height := by
    have accepted : tree.accepted <+: (tree.receive node id).accepted := by
      rw [receive]
      dsimp only
      split
      · exact List.prefix_refl _
      · exact List.prefix_append ..
    exact (accepted.filterMap _).filter _
  received has := (hasReceived_receive known ..).mpr (.inl has)

theorem Step.grows {acceptance : Option (Nat × Nat)} (step : Step acceptance tree after)
    (coherent : tree.Coherent) : tree.Extends after := by
  cases step with
  | same => exact .refl tree
  | joined => exact extends_addNode tree
  | created inserted => exact coherent.extends_insert inserted
  | accepted head known => exact extends_receive known _ head

end BlockTree

section Growth

variable {P : Protocol}

namespace Network

theorem createBlock_eq_ok_iff {network : Network P} {proposal : BlockProposal P.Payload}
    {id : Nat} :
    (network.createBlock proposal).1 = .ok id ↔
      proposal.producer < network.nodeCount ∧ id = network.tree.length ∧
        ∃ above, network.tree.block? proposal.parent = some above ∧
          above.height < proposal.height := by
  rw [createBlock]
  split
  · rename_i unknown
    have beyond := node?_eq_none_iff.mp unknown
    simp [Nat.not_lt.mpr beyond]
  · rename_i node found
    have known := lt_nodeCount_of_node? found
    split
    · rename_i error refused
      simp only [reduceCtorEq, false_iff, not_and, not_exists]
      intro _ _ above aboveFound higher
      have inserted := BlockTree.insert_eq_ok_iff.mpr
        ⟨above, _, aboveFound, higher, rfl, rfl, rfl⟩
      rw [refused] at inserted
      cases inserted
    · rename_i number tree inserted
      obtain ⟨above, _, aboveFound, higher, isNext, -⟩ := BlockTree.insert_eq_ok_iff.mp inserted
      simp only [Except.ok.injEq]
      constructor
      · rintro rfl
        exact ⟨known, isNext, above, aboveFound, higher⟩
      · rintro ⟨-, same, -⟩
        rw [same, isNext]

end Network

theorem Passes.grows {behaviour : Behaviour P} {good : Op P → Prop} {start stop : Network P}
    {past : List (Moment P)} (passes : Passes (Moment.Lawful behaviour good) start past stop)
    (viewed : start.Viewed) (coherent : start.tree.Coherent) :
    start.tree.Extends stop.tree := by
  obtain ⟨-, -, grown⟩ := passes.preserves (motive := fun _ network => network.Viewed ∧
      network.tree.Coherent ∧ start.tree.Extends network.tree)
    ⟨viewed, coherent, .refl _⟩ <| by
      rintro earlier moment lawful ⟨viewed, coherent, grown⟩
      have step := lawful.step viewed
      exact ⟨lawful.viewed viewed, step.coherent coherent, grown.trans (step.grows coherent)⟩
  exact grown

theorem Passes.lineage {behaviour : Behaviour P} {good : Op P → Prop} {start stop : Network P}
    {past : List (Moment P)} (passes : Passes (Moment.Lawful behaviour good) start past stop)
    (viewed : start.Viewed) (lineage : start.tree.Lineage) : stop.tree.Lineage := by
  obtain ⟨-, lineage⟩ := passes.preserves
    (motive := fun _ network => network.Viewed ∧ network.tree.Lineage) ⟨viewed, lineage⟩ <| by
      rintro earlier moment lawful ⟨viewed, lineage⟩
      exact ⟨lawful.viewed viewed, (lawful.step viewed).lineage lineage⟩
  exact lineage

/-- Blocks are numbered in the order of their creation, every way along parents leads down to the
genesis block, and nothing in a tree is ever taken back. -/
theorem Program.tree_grows {α : Type} (behaviour : Behaviour P) (config : NetworkConfig)
    (latency : Latency) (genesis : P.Payload) (life : Program P α) (fuel : Nat)
    {past later rest : List (Moment P)}
    (lived : (life.record (Network.recordRun behaviour fuel)
      (.new config latency genesis)).history = past ++ later ++ rest)
    (early late : Network P) (before : early = stateAfter (.new config latency genesis) past)
    (reached : late = stateAfter (.new config latency genesis) (past ++ later)) :
    (∃ block, late.tree.block? genesisId = some block) ∧
    (∀ id block, late.tree.block? id = some block →
      block.id = id ∧ (block.parent = none ↔ id = genesisId)) ∧
    (∀ id block parent, late.tree.block? id = some block → block.parent = some parent →
      ∃ above, late.tree.block? parent = some above ∧ parent < id ∧
        above.height < block.height) ∧
    (∀ parent, parent < late.tree.length →
      ∃ children, late.tree.children parent = .ok children ∧ children.Pairwise (· < ·) ∧
        ∀ id, id ∈ children ↔
          ∃ block, late.tree.block? id = some block ∧ block.parent = some parent) ∧
    (∀ proposal id, (late.createBlock proposal).1 = .ok id ↔
      proposal.producer < late.nodeCount ∧ id = late.tree.length ∧
        ∃ above, late.tree.block? proposal.parent = some above ∧
          above.height < proposal.height) ∧
    early.tree.Extends late.tree := by
  have passes := past_passes lived
  obtain ⟨middle, first, second⟩ := passes.split
  rw [← reached] at passes second
  obtain rfl : middle = early := first.stop_eq.trans before.symm
  have receipts : BlockTree.Receipts [] (Network.new config latency genesis : Network P).tree :=
    ⟨nofun, nofun, .nil⟩
  obtain ⟨viewed, coherent, -⟩ :=
    first.receipts rfl (BlockTree.coherent_new genesis) receipts
  obtain ⟨-, lateCoherent, -⟩ :=
    passes.receipts rfl (BlockTree.coherent_new genesis) receipts
  have lineage := passes.lineage rfl (BlockTree.lineage_new genesis)
  refine ⟨?_, ?_, ?_, ?_, ?_, second.grows viewed coherent⟩
  · obtain ⟨block, found, -⟩ :=
      lateCoherent.valid genesisId ((lateCoherent.held genesisId).mpr (.inl rfl))
    exact ⟨block, found⟩
  · exact fun id block found => ⟨lateCoherent.numbered found, lineage.rooted found⟩
  · exact fun id block parent found names => lineage.descends found names
  · intro parent known
    exact ⟨late.tree.childrenOf parent, lineage.children_eq known,
      late.tree.childrenOf_increasing parent, fun _ => BlockTree.mem_childrenOf⟩
  · exact fun proposal id => Network.createBlock_eq_ok_iff

/-- Two nodes, a chain with a gap in its heights, a block beside it that is not valid, and
proposals that are refused; one node accepts two blocks at the same height. -/
def relay.branching : Program relay (Except Error Bool) := do
  let _ ← Program.perform (.addNode (.new ⟨0, 0, none⟩ false) ())
  let _ ← Program.perform (.addNode (.new ⟨3, 4, none⟩ false) ())
  let _ ← Program.perform (.createBlock ⟨0, 0, 1, 0, true, ()⟩)
  let _ ← Program.perform (.offerBlock 0 1)
  let _ ← Program.perform (.createBlock ⟨1, 1, 9, 0, false, ()⟩)
  let _ ← Program.perform (.createBlock ⟨1, 2, 9, 0, true, ()⟩)
  let _ ← Program.perform (.createBlock ⟨2, 1, 3, 0, true, ()⟩)
  let _ ← Program.perform (.createBlock ⟨1, 0, 1, 0, true, ()⟩)
  Program.perform (.offerBlock 0 3)

def relay.branched : List (Moment relay) :=
  (relay.branching.record (Network.recordRun relay.behaviour 0) relay.initial).history

theorem relay_tree_grows :
    (stateAfter relay.initial relay.branched).tree.length = 4 ∧
    (∃ children, (stateAfter relay.initial relay.branched).tree.children 0 = .ok children ∧
      children.Pairwise (· < ·) ∧ children = [1, 3]) ∧
    ((stateAfter relay.initial relay.branched).createBlock ⟨0, 2, 10, 0, true, ()⟩).1 = .ok 4 ∧
    ((stateAfter relay.initial (relay.branched.take 4)).tree.Extends
      (stateAfter relay.initial relay.branched).tree) ∧
    (stateAfter relay.initial (relay.branched.take 4)).tree.acceptedBlocks.map (·.id) = [0, 1] ∧
    (stateAfter relay.initial relay.branched).tree.acceptedBlocks.map (·.id) = [0, 1, 3] := by
  have lived : (relay.branching.record (Network.recordRun relay.behaviour 0)
      relay.initial).history = relay.branched.take 4 ++ relay.branched.drop 4 ++ [] := by
    rw [List.append_nil, List.take_append_drop]
    rfl
  obtain ⟨-, -, -, children, created, grown⟩ :=
    Program.tree_grows relay.behaviour {} (LatencyModel.fixed 2).latency () relay.branching 0
      lived _ (stateAfter relay.initial relay.branched) rfl (by rw [List.take_append_drop]; rfl)
  obtain ⟨listed, found, increasing, -⟩ := children 0 (by decide)
  refine ⟨rfl, ⟨listed, found, increasing, ?_⟩, (created _ 4).mpr ?_, grown, rfl, rfl⟩
  · cases found
    rfl
  · exact ⟨by decide, rfl, _, rfl, by decide⟩

end Growth

end Simnet
