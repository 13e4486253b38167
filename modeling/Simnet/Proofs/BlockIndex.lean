import Mathlib.Data.List.Nodup
import Simnet.BlockTree

namespace Simnet

/-! The index of the accepted blocks, and what each node has received. The check for
equivocation asks the index alone, and blocks are received one node at a time. Both agree
because a block enters the index exactly when a first node receives it. -/

namespace BlockTree

variable {β : Type} {tree after : BlockTree β} {node id : Nat} {block : Block β}

/-- The genesis block counts as accepted before there are nodes. -/
def IsAccepted (tree : BlockTree β) (id : Nat) : Prop :=
  id = genesisId ∨ ∃ node, tree.hasReceived node id = true

structure Indexed (tree : BlockTree β) : Prop where
  listed : ∀ height block, block ∈ tree.blocksAtHeight height ↔
    block ∈ tree.blocks ∧ block.height = height ∧ tree.IsAccepted block.id
  once : ∀ height, (tree.blocksAtHeight height).Nodup
  valid : ∀ height, ∀ block ∈ tree.blocksAtHeight height, block.valid = true
  single : ∀ height, ∀ first ∈ tree.blocksAtHeight height,
    ∀ second ∈ tree.blocksAtHeight height, first.producer = second.producer → first = second
  agreed : ∀ node other, ∀ first ∈ tree.blocks, ∀ second ∈ tree.blocks,
    tree.hasReceived node first.id = true → tree.hasReceived other second.id = true →
      first.height = second.height → first.producer = second.producer → first = second
  shown : ∀ id block, tree.acceptedBlock? id = some block ↔
    block ∈ tree.blocks ∧ block.id = id ∧ tree.IsAccepted id
  highest : tree.blocksAtHeight tree.maxHeight ≠ [] ∧
    ∀ height, tree.blocksAtHeight height ≠ [] → height ≤ tree.maxHeight

/-! What an operation does to the tree -/

/-- What can happen to a tree; a node may accept a block in it. -/
inductive Step : Option (Nat × Nat) → BlockTree β → BlockTree β → Prop
  | same (tree : BlockTree β) : Step none tree tree
  | joined (tree : BlockTree β) : Step none tree tree.addNode
  | created {tree after : BlockTree β} {proposal : BlockProposal β} {id : Nat}
      (inserted : tree.insert proposal = .ok (id, after)) : Step none tree after
  | accepted {tree : BlockTree β} {node id : Nat} {block : Block β} (head : Nat)
      (known : node < tree.received.length) (found : tree.block? id = some block)
      (valid : block.valid = true) (new : tree.hasReceived node id = false)
      (alone : tree.conflicting block = none) :
      Step (some (node, id)) tree ((tree.receive node block.id).setHead node head)

theorem Step.of_same (same : after = tree) : Step none tree after := by
  rw [same]
  exact .same tree

theorem block_eq_ok_iff : tree.block id = .ok block ↔ tree.block? id = some block := by
  unfold BlockTree.block
  cases tree.block? id with
  | none => simp
  | some found => simp

@[simp] theorem block?_receive (tree : BlockTree β) (node block id : Nat) :
    (tree.receive node block).block? id = tree.block? id := rfl

theorem hasReceived_addNode (tree : BlockTree β) (node id : Nat) :
    tree.addNode.hasReceived node id = true ↔
      tree.hasReceived node id = true ∨ node = tree.received.length ∧ id = genesisId := by
  simp only [hasReceived, addNode, List.contains_iff_mem, List.getElem?_append]
  split
  · rename_i inside
    simp [Nat.ne_of_lt inside]
  · rename_i beyond
    rw [List.getElem?_eq_none (Nat.not_lt.mp beyond)]
    by_cases last : node = tree.received.length
    · simp [last]
    · have past : [[genesisId]].length ≤ node - tree.received.length := by
        rw [List.length_singleton]
        omega
      rw [List.getElem?_eq_none past]
      simp [last]

theorem hasReceived_receive (known : node < tree.received.length) (block other id : Nat) :
    (tree.receive node block).hasReceived other id = true ↔
      tree.hasReceived other id = true ∨ other = node ∧ id = block := by
  simp only [hasReceived, receive, List.contains_iff_mem, List.getElem?_modify]
  by_cases same : node = other
  · subst same
    simp [List.getElem?_eq_getElem known]
  · simp [same, Ne.symm same]

theorem insert_eq_ok_iff {proposal : BlockProposal β} :
    tree.insert proposal = .ok (id, after) ↔
      ∃ above created, tree.block? proposal.parent = some above ∧
        above.height < proposal.height ∧ id = tree.length ∧
        created = { id := tree.length, producer := some proposal.producer
                    height := proposal.height, parent := some proposal.parent
                    valid := proposal.valid, proposalTime := proposal.proposalTime
                    payload := proposal.payload } ∧
        after = { tree with
          blocks := tree.blocks ++ [created]
          childLists := (tree.childLists ++ [[]]).modify proposal.parent
            (· ++ [tree.length]) } := by
  unfold insert
  constructor
  · intro inserted
    split at inserted
    · cases inserted
    · rename_i above found
      split at inserted
      · cases inserted
      · rename_i notBelow
        cases inserted
        exact ⟨above, _, block_eq_ok_iff.mp found, Nat.not_le.mp notBelow, rfl, rfl, rfl⟩
  · rintro ⟨above, created, found, higher, rfl, rfl, rfl⟩
    rw [block_eq_ok_iff.mpr found]
    simp only [if_neg (Nat.not_le.mpr higher)]

theorem insert_eq_ok {proposal : BlockProposal β}
    (inserted : tree.insert proposal = .ok (id, after)) :
    ∃ block, block.id = tree.blocks.length ∧ block.producer = some proposal.producer ∧
      after.blocks = tree.blocks ++ [block] ∧ after.accepted = tree.accepted ∧
      after.received = tree.received := by
  obtain ⟨_, block, -, -, -, rfl, rfl⟩ := insert_eq_ok_iff.mp inserted
  exact ⟨_, rfl, rfl, rfl, rfl, rfl⟩

theorem block?_of_append {created : Block β} (blocks : after.blocks = tree.blocks ++ [created]) :
    after.block? id = some block ↔
      tree.block? id = some block ∨ id = tree.blocks.length ∧ block = created := by
  unfold block?
  rw [blocks, List.getElem?_append]
  split
  · rename_i inside
    simp [Nat.ne_of_lt inside]
  · rename_i beyond
    rw [List.getElem?_eq_none (Nat.not_lt.mp beyond), List.getElem?_singleton]
    split
    · have last : id = tree.blocks.length := by omega
      simp [last, eq_comm]
    · have past : id ≠ tree.blocks.length := by omega
      simp [past]

/-! The index and the receipts agree. -/

structure Coherent (tree : BlockTree β) : Prop where
  numbered : ∀ {id block}, tree.block? id = some block → block.id = id
  produced : ∀ {id block}, tree.block? id = some block → block.producer = none →
    id = genesisId
  distinct : tree.accepted.Nodup
  held : ∀ id, id ∈ tree.accepted ↔ tree.IsAccepted id
  valid : ∀ id ∈ tree.accepted, ∃ block, tree.block? id = some block ∧ block.valid = true
  single : ∀ first ∈ tree.acceptedBlocks, ∀ second ∈ tree.acceptedBlocks,
    first.height = second.height → first.producer = second.producer → first = second

theorem mem_acceptedBlocks :
    block ∈ tree.acceptedBlocks ↔ ∃ id ∈ tree.accepted, tree.block? id = some block :=
  List.mem_filterMap

theorem mem_blocksAtHeight {height : Nat} :
    block ∈ tree.blocksAtHeight height ↔
      block ∈ tree.acceptedBlocks ∧ block.height = height := by
  rw [blocksAtHeight, List.mem_filter, decide_eq_true_eq]

theorem mem_blocks : block ∈ tree.blocks ↔ ∃ id, tree.block? id = some block :=
  List.mem_iff_getElem?

theorem coherent_new (payload : β) : (new payload).Coherent where
  numbered := by
    intro id block found
    cases id with
    | zero =>
        cases found
        rfl
    | succ id => cases found
  produced := by
    intro id block found _
    cases id with
    | zero => rfl
    | succ id => cases found
  distinct := List.nodup_singleton genesisId
  held := by
    intro id
    simp [new, IsAccepted, hasReceived]
  valid := by
    intro id member
    rw [List.mem_singleton.mp member]
    exact ⟨_, rfl, rfl⟩
  single := by
    intro first firstMember second secondMember _ _
    rw [List.mem_singleton.mp firstMember, List.mem_singleton.mp secondMember]

theorem Coherent.addNode (coherent : tree.Coherent) : tree.addNode.Coherent where
  numbered := coherent.numbered
  produced := coherent.produced
  distinct := coherent.distinct
  held := by
    intro id
    refine (coherent.held id).trans ?_
    simp only [IsAccepted, hasReceived_addNode]
    constructor
    · rintro (genesis | ⟨node, received⟩)
      · exact .inl genesis
      · exact .inr ⟨node, .inl received⟩
    · rintro (genesis | ⟨node, received | ⟨-, genesis⟩⟩)
      · exact .inl genesis
      · exact .inr ⟨node, received⟩
      · exact .inl genesis
  valid := coherent.valid
  single := coherent.single

theorem Coherent.setHead (coherent : tree.Coherent) (node head : Nat) :
    (tree.setHead node head).Coherent where
  numbered := coherent.numbered
  produced := coherent.produced
  distinct := coherent.distinct
  held := coherent.held
  valid := coherent.valid
  single := coherent.single

/-- What is accepted was created before, so a new block hides none of it. -/
theorem Coherent.block?_insert (coherent : tree.Coherent) {proposal : BlockProposal β}
    (inserted : tree.insert proposal = .ok (id, after)) :
    ∀ id ∈ tree.accepted, after.block? id = tree.block? id := by
  obtain ⟨created, -, -, blocks, -⟩ := insert_eq_ok inserted
  intro id member
  obtain ⟨block, found, -⟩ := coherent.valid id member
  rw [found]
  exact (block?_of_append blocks).mpr (.inl found)

theorem Coherent.acceptedBlocks_insert (coherent : tree.Coherent)
    {proposal : BlockProposal β} (inserted : tree.insert proposal = .ok (id, after)) :
    after.acceptedBlocks = tree.acceptedBlocks := by
  obtain ⟨created, -, -, -, accepted, -⟩ := insert_eq_ok inserted
  rw [acceptedBlocks, acceptedBlocks, accepted]
  exact List.filterMap_congr (coherent.block?_insert inserted)

theorem Coherent.insert (coherent : tree.Coherent) {proposal : BlockProposal β}
    (inserted : tree.insert proposal = .ok (id, after)) : after.Coherent := by
  obtain ⟨created, number, producer, blocks, accepted, received⟩ := insert_eq_ok inserted
  constructor
  case numbered =>
    intro id block found
    rcases (block?_of_append blocks).mp found with old | ⟨rfl, rfl⟩
    · exact coherent.numbered old
    · exact number
  case produced =>
    intro id block found orphan
    rcases (block?_of_append blocks).mp found with old | ⟨rfl, rfl⟩
    · exact coherent.produced old orphan
    · rw [producer] at orphan
      cases orphan
  case distinct =>
    rw [accepted]
    exact coherent.distinct
  case held =>
    intro id
    unfold IsAccepted hasReceived
    rw [accepted, received]
    exact coherent.held id
  case valid =>
    intro id member
    rw [accepted] at member
    rw [coherent.block?_insert inserted id member]
    exact coherent.valid id member
  case single =>
    rw [coherent.acceptedBlocks_insert inserted]
    exact coherent.single

theorem mem_accepted_receive {other : Nat} :
    other ∈ (tree.receive node id).accepted ↔ other ∈ tree.accepted ∨ other = id := by
  unfold receive
  dsimp only
  split
  · rename_i present
    rw [List.contains_iff_mem] at present
    constructor
    · exact .inl
    · rintro (member | rfl)
      · exact member
      · exact present
  · simp

theorem Coherent.eq_of_conflicting (coherent : tree.Coherent)
    (found : tree.block? id = some block) (alone : tree.conflicting block = none)
    {other : Block β} (accepted : other ∈ tree.acceptedBlocks)
    (height : other.height = block.height) (producer : other.producer = block.producer) :
    other = block := by
  obtain ⟨number, -, otherFound⟩ := mem_acceptedBlocks.mp accepted
  have sameId : number = id := by
    cases produces : block.producer with
    | none =>
        -- The index is not asked here, but only the genesis block has no producer.
        rw [coherent.produced otherFound (producer.trans produces),
          coherent.produced found produces]
    | some author =>
        simp only [conflicting, produces, Option.map_eq_none_iff, List.find?_eq_none] at alone
        have equal := alone other (mem_blocksAtHeight.mpr ⟨accepted, height⟩)
        rw [producer, produces] at equal
        rw [← coherent.numbered otherFound, ← coherent.numbered found]
        simpa using equal
  rw [sameId, found] at otherFound
  exact (Option.some.inj otherFound).symm

theorem Coherent.receive (coherent : tree.Coherent) (known : node < tree.received.length)
    (found : tree.block? id = some block) (valid : block.valid = true)
    (alone : tree.conflicting block = none) : (tree.receive node block.id).Coherent where
  numbered := coherent.numbered
  produced := coherent.produced
  distinct := by
    unfold BlockTree.receive
    dsimp only
    split
    · exact coherent.distinct
    · rename_i absent
      rw [List.contains_iff_mem] at absent
      rw [← List.concat_eq_append]
      exact coherent.distinct.concat absent
  held := by
    intro other
    rw [mem_accepted_receive, coherent.held]
    simp only [IsAccepted, hasReceived_receive known]
    constructor
    · rintro ((genesis | ⟨holder, received⟩) | new)
      · exact .inl genesis
      · exact .inr ⟨holder, .inl received⟩
      · exact .inr ⟨node, .inr ⟨rfl, new⟩⟩
    · rintro (genesis | ⟨holder, received | ⟨-, new⟩⟩)
      · exact .inl (.inl genesis)
      · exact .inl (.inr ⟨holder, received⟩)
      · exact .inr new
  valid := by
    intro other member
    rcases mem_accepted_receive.mp member with old | rfl
    · exact coherent.valid other old
    · rw [coherent.numbered found]
      exact ⟨block, found, valid⟩
  single := by
    have oldOrNew : ∀ other ∈ (tree.receive node block.id).acceptedBlocks,
        other ∈ tree.acceptedBlocks ∨ other = block := by
      intro other member
      obtain ⟨number, listed, otherFound⟩ := mem_acceptedBlocks.mp member
      rcases mem_accepted_receive.mp listed with old | rfl
      · exact .inl (mem_acceptedBlocks.mpr ⟨number, old, otherFound⟩)
      · rw [block?_receive, coherent.numbered found, found] at otherFound
        exact .inr (Option.some.inj otherFound).symm
    intro first firstMember second secondMember height producer
    rcases oldOrNew first firstMember with oldFirst | rfl
    · rcases oldOrNew second secondMember with oldSecond | rfl
      · exact coherent.single first oldFirst second oldSecond height producer
      · exact coherent.eq_of_conflicting found alone oldFirst height producer
    · rcases oldOrNew second secondMember with oldSecond | rfl
      · exact (coherent.eq_of_conflicting found alone oldSecond height.symm
          producer.symm).symm
      · rfl

theorem Step.coherent {acceptance : Option (Nat × Nat)}
    (step : Step acceptance tree after) (coherent : tree.Coherent) : after.Coherent := by
  cases step with
  | same => exact coherent
  | joined => exact coherent.addNode
  | created inserted => exact coherent.insert inserted
  | accepted head known found valid _ alone =>
      exact (coherent.receive known found valid alone).setHead _ head

theorem Coherent.mem_acceptedBlocks_iff (coherent : tree.Coherent) :
    block ∈ tree.acceptedBlocks ↔ block ∈ tree.blocks ∧ tree.IsAccepted block.id := by
  rw [mem_acceptedBlocks, mem_blocks]
  constructor
  · rintro ⟨number, listed, found⟩
    rw [coherent.numbered found]
    exact ⟨⟨number, found⟩, (coherent.held number).mp listed⟩
  · rintro ⟨⟨number, found⟩, accepted⟩
    rw [coherent.numbered found] at accepted
    exact ⟨number, (coherent.held number).mpr accepted, found⟩

theorem Coherent.highest (coherent : tree.Coherent) :
    tree.blocksAtHeight tree.maxHeight ≠ [] ∧
      ∀ height, tree.blocksAtHeight height ≠ [] → height ≤ tree.maxHeight := by
  have genesis : genesisId ∈ tree.accepted := (coherent.held genesisId).mpr (.inl rfl)
  obtain ⟨first, found, -⟩ := coherent.valid genesisId genesis
  have firstMember := mem_acceptedBlocks.mpr ⟨genesisId, genesis, found⟩
  cases greatest : (tree.acceptedBlocks.map (·.height)).max? with
  | none =>
      rw [List.max?_eq_none_iff, List.map_eq_nil_iff] at greatest
      rw [greatest] at firstMember
      cases firstMember
  | some height =>
      have isMax : tree.maxHeight = height := by
        rw [maxHeight, List.foldl_max, greatest]
        exact Nat.zero_max height
      obtain ⟨attained, above⟩ := List.max?_eq_some_iff.mp greatest
      rw [isMax]
      constructor
      · obtain ⟨block, member, isHeight⟩ := List.mem_map.mp attained
        exact List.ne_nil_of_mem (mem_blocksAtHeight.mpr ⟨member, isHeight⟩)
      · intro other inhabited
        obtain ⟨block, member⟩ := List.exists_mem_of_ne_nil _ inhabited
        obtain ⟨accepted, rfl⟩ := mem_blocksAtHeight.mp member
        exact above _ (List.mem_map_of_mem accepted)

theorem Coherent.indexed (coherent : tree.Coherent) : tree.Indexed where
  listed := by
    intro height block
    rw [mem_blocksAtHeight, coherent.mem_acceptedBlocks_iff]
    tauto
  once := by
    intro height
    unfold blocksAtHeight acceptedBlocks
    refine (List.Nodup.filterMap ?_ coherent.distinct).filter _
    intro first second block foundFirst foundSecond
    exact (coherent.numbered foundFirst).symm.trans (coherent.numbered foundSecond)
  valid := by
    intro height block member
    obtain ⟨accepted, -⟩ := mem_blocksAtHeight.mp member
    obtain ⟨number, listed, found⟩ := mem_acceptedBlocks.mp accepted
    obtain ⟨other, otherFound, valid⟩ := coherent.valid number listed
    rw [found] at otherFound
    cases otherFound
    exact valid
  single := by
    intro height first firstMember second secondMember producer
    obtain ⟨firstAccepted, firstHeight⟩ := mem_blocksAtHeight.mp firstMember
    obtain ⟨secondAccepted, secondHeight⟩ := mem_blocksAtHeight.mp secondMember
    exact coherent.single first firstAccepted second secondAccepted
      (firstHeight.trans secondHeight.symm) producer
  agreed := by
    intro node other first firstCreated second secondCreated firstReceived secondReceived
    apply coherent.single
    · exact coherent.mem_acceptedBlocks_iff.mpr
        ⟨firstCreated, .inr ⟨node, firstReceived⟩⟩
    · exact coherent.mem_acceptedBlocks_iff.mpr
        ⟨secondCreated, .inr ⟨other, secondReceived⟩⟩
  shown := by
    intro id block
    unfold acceptedBlock?
    rw [← coherent.held, mem_blocks]
    split
    · rename_i listed
      rw [List.contains_iff_mem] at listed
      constructor
      · intro found
        exact ⟨⟨id, found⟩, coherent.numbered found, listed⟩
      · rintro ⟨⟨number, found⟩, rfl, -⟩
        rw [coherent.numbered found]
        exact found
    · rename_i absent
      rw [List.contains_iff_mem] at absent
      simp [absent]
  highest := coherent.highest

/-! What the nodes have received -/

/-- What each node has received is the genesis block and what it has accepted since. -/
structure Receipts (acceptances : List (Nat × Nat)) (tree : BlockTree β) : Prop where
  received : ∀ node, node < tree.received.length → tree.received[node]? =
    some (genesisId :: (acceptances.filter (·.1 = node)).map (·.2))
  known : ∀ pair ∈ acceptances, pair.1 < tree.received.length
  distinct : acceptances.Nodup

variable {acceptances : List (Nat × Nat)}

theorem Receipts.of_same (receipts : Receipts acceptances tree)
    (same : after.received = tree.received) : Receipts acceptances after where
  received := by
    rw [same]
    exact receipts.received
  known := by
    rw [same]
    exact receipts.known
  distinct := receipts.distinct

theorem Receipts.addNode (receipts : Receipts acceptances tree) :
    Receipts acceptances tree.addNode where
  received := by
    intro node bound
    simp only [BlockTree.addNode, List.length_append, List.length_singleton] at bound
    simp only [BlockTree.addNode, List.getElem?_append]
    split
    · rename_i inside
      exact receipts.received node inside
    · rename_i beyond
      have last : node = tree.received.length := by omega
      have none : acceptances.filter (·.1 = node) = [] := by
        rw [List.filter_eq_nil_iff]
        intro pair member
        have inside := receipts.known pair member
        simp only [decide_eq_true_eq]
        omega
      simp [last ▸ none, last]
  known := by
    intro pair member
    have inside := receipts.known pair member
    simp only [BlockTree.addNode, List.length_append]
    omega
  distinct := receipts.distinct

theorem Receipts.hasReceived (receipts : Receipts acceptances tree)
    (member : (node, id) ∈ acceptances) : tree.hasReceived node id = true := by
  unfold BlockTree.hasReceived
  rw [receipts.received node (receipts.known _ member), List.contains_iff_mem]
  refine List.mem_cons_of_mem _ (List.mem_map.mpr ⟨(node, id), ?_, rfl⟩)
  exact List.mem_filter.mpr ⟨member, by simp⟩

theorem Receipts.mem_of_hasReceived (receipts : Receipts acceptances tree)
    (received : tree.hasReceived node id = true) : id = genesisId ∨ (node, id) ∈ acceptances := by
  have known : node < tree.received.length := by
    by_contra beyond
    rw [BlockTree.hasReceived, List.getElem?_eq_none (Nat.not_lt.mp beyond)] at received
    cases received
  rw [BlockTree.hasReceived, receipts.received node known, Option.getD_some,
    List.contains_iff_mem, List.mem_cons] at received
  refine received.imp_right fun member => ?_
  obtain ⟨⟨holder, other⟩, inside, rfl⟩ := List.mem_map.mp member
  obtain ⟨accepted, own⟩ := List.mem_filter.mp inside
  obtain rfl := of_decide_eq_true own
  exact accepted

theorem Receipts.receive (receipts : Receipts acceptances tree)
    (known : node < tree.received.length) (new : tree.hasReceived node id = false) :
    Receipts (acceptances ++ [(node, id)]) (tree.receive node id) where
  received := by
    intro other bound
    simp only [BlockTree.receive, List.length_modify] at bound
    simp only [BlockTree.receive, List.getElem?_modify, receipts.received other bound]
    by_cases same : node = other
    · simp [same]
    · simp [same]
  known := by
    intro pair member
    simp only [BlockTree.receive, List.length_modify]
    rcases List.mem_append.mp member with old | last
    · exact receipts.known pair old
    · rw [List.mem_singleton.mp last]
      exact known
  distinct := by
    rw [← List.concat_eq_append]
    apply receipts.distinct.concat
    intro member
    rw [receipts.hasReceived member] at new
    cases new

theorem Step.receipts {acceptance : Option (Nat × Nat)} (step : Step acceptance tree after)
    (coherent : tree.Coherent) (receipts : Receipts acceptances tree) :
    Receipts (acceptances ++ acceptance.toList) after := by
  cases step with
  | same =>
      rw [Option.toList_none, List.append_nil]
      exact receipts
  | joined =>
      rw [Option.toList_none, List.append_nil]
      exact receipts.addNode
  | created inserted =>
      obtain ⟨block, -, -, -, -, received⟩ := insert_eq_ok inserted
      rw [Option.toList_none, List.append_nil]
      exact receipts.of_same received
  | accepted head known found _ new _ =>
      rw [coherent.numbered found]
      exact (receipts.receive known new).of_same rfl

end BlockTree

end Simnet
