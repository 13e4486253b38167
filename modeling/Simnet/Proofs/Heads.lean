import Simnet.Proofs.AcceptedBlocks

namespace Simnet

/-! The heads of the nodes. A head moves by one comparison at a time, each time a block is
accepted, yet what a fork choice makes of a node's blocks can be said of all of them at
once. A rule that survives one more block holds of every head in every life. -/

namespace BlockTree

variable {β : Type} {tree after : BlockTree β} {node id head : Nat} {ids : List Nat}

/-- Zero for a block that was never created. -/
def heightOf (tree : BlockTree β) (id : Nat) : Nat :=
  match tree.block? id with
  | some block => block.height
  | none => 0

/-- The highest of some blocks; of equally high ones, the one created first. -/
structure Longest (tree : BlockTree β) (ids : List Nat) (head : Nat) : Prop where
  member : head ∈ ids
  best : ∀ id ∈ ids, tree.heightOf id < tree.heightOf head ∨
    tree.heightOf id = tree.heightOf head ∧ head ≤ id

/-- The first of the highest blocks of a list. -/
structure FirstHighest (tree : BlockTree β) (ids : List Nat) (head : Nat) : Prop where
  split : ∃ earlier later, ids = earlier ++ head :: later ∧
    (∀ id ∈ earlier, tree.heightOf id < tree.heightOf head) ∧
    ∀ id ∈ later, tree.heightOf id ≤ tree.heightOf head

theorem Longest.unique {other : BlockTree β} {others : List Nat} {otherHead : Nat}
    (longest : tree.Longest ids head) (otherLongest : other.Longest others otherHead)
    (same : ∀ id, id ∈ ids ↔ id ∈ others)
    (heights : ∀ id ∈ ids, tree.heightOf id = other.heightOf id) : otherHead = head := by
  have inOthers := (same head).mp longest.member
  have inIds := (same otherHead).mpr otherLongest.member
  have first := longest.best otherHead inIds
  have second := otherLongest.best head inOthers
  have height := heights head longest.member
  have otherHeight := heights otherHead inIds
  omega

/-! What a fork choice makes of one more block -/

/-- What is true of the head of a node, and stays true under a fork choice. -/
structure Rule (choice : ForkChoice β) (good : BlockTree β → List Nat → Nat → Prop) :
    Prop where
  genesis : ∀ tree, good tree [genesisId] genesisId
  stable : ∀ {tree after ids head}, (∀ id ∈ ids, after.block? id = tree.block? id) →
    good tree ids head → good after ids head
  extend : ∀ {tree ids head id}, tree.Coherent → tree.IsAccepted id →
    (∀ other ∈ ids, tree.IsAccepted other) → good tree ids head →
      good tree (ids ++ [id]) (choice tree head id)

theorem heightOf_congr (same : after.block? id = tree.block? id) :
    after.heightOf id = tree.heightOf id := by
  unfold heightOf
  rw [same]

theorem Coherent.exists_block (coherent : tree.Coherent) (accepted : tree.IsAccepted id) :
    ∃ block, tree.block? id = some block ∧ block.id = id := by
  obtain ⟨block, found, -⟩ := coherent.valid id ((coherent.held id).mpr accepted)
  exact ⟨block, found, coherent.numbered found⟩

theorem Coherent.longest_eq (coherent : tree.Coherent) (first : tree.IsAccepted head)
    (second : tree.IsAccepted id) :
    tree.longest head id =
      if tree.heightOf head < tree.heightOf id ∨
          tree.heightOf head = tree.heightOf id ∧ id < head then id else head := by
  obtain ⟨left, leftFound, rfl⟩ := coherent.exists_block first
  obtain ⟨right, rightFound, rfl⟩ := coherent.exists_block second
  simp only [longest, heightOf, leftFound, rightFound]

theorem Coherent.higher_eq (coherent : tree.Coherent) (first : tree.IsAccepted head)
    (second : tree.IsAccepted id) :
    tree.higher head id = if tree.heightOf head < tree.heightOf id then id else head := by
  obtain ⟨left, leftFound, -⟩ := coherent.exists_block first
  obtain ⟨right, rightFound, -⟩ := coherent.exists_block second
  simp only [higher, heightOf, leftFound, rightFound]

theorem rule_longest : Rule (β := β) longest Longest where
  genesis _ := by
    refine ⟨List.mem_singleton_self genesisId, ?_⟩
    intro id member
    rw [List.mem_singleton.mp member]
    exact .inr ⟨rfl, Nat.le_refl _⟩
  stable same longest := by
    refine ⟨longest.member, ?_⟩
    intro id member
    rw [heightOf_congr (same id member), heightOf_congr (same _ longest.member)]
    exact longest.best id member
  extend {tree ids head id} coherent accepted known longest := by
    rw [coherent.longest_eq (known head longest.member) accepted]
    split
    · rename_i better
      refine ⟨List.mem_append_right _ (List.mem_singleton_self id), ?_⟩
      intro other member
      rcases List.mem_append.mp member with old | last
      · have beaten := longest.best other old
        omega
      · rw [List.mem_singleton.mp last]
        exact .inr ⟨rfl, Nat.le_refl _⟩
    · rename_i notBetter
      refine ⟨List.mem_append_left _ longest.member, ?_⟩
      intro other member
      rcases List.mem_append.mp member with old | last
      · exact longest.best other old
      · rw [List.mem_singleton.mp last]
        omega

theorem rule_higher : Rule (β := β) higher FirstHighest where
  genesis _ := ⟨[], [], rfl, List.forall_mem_nil _, List.forall_mem_nil _⟩
  stable := by
    rintro tree after ids head same ⟨earlier, later, rfl, lower, notHigher⟩
    have headSame := heightOf_congr (same head (by simp))
    refine ⟨earlier, later, rfl, ?_, ?_⟩
    · intro id member
      rw [headSame, heightOf_congr (same id (List.mem_append_left _ member))]
      exact lower id member
    · intro id member
      rw [headSame, heightOf_congr (same id (by simp [member]))]
      exact notHigher id member
  extend := by
    rintro tree ids head id coherent accepted known ⟨earlier, later, rfl, lower, notHigher⟩
    rw [coherent.higher_eq (known head (by simp)) accepted]
    split
    · rename_i higher
      refine ⟨earlier ++ head :: later, [], rfl, ?_, List.forall_mem_nil _⟩
      intro other member
      rcases List.mem_append.mp member with first | rest
      · have below := lower other first
        omega
      · rcases List.mem_cons.mp rest with rfl | last
        · exact higher
        · have below := notHigher other last
          omega
    · rename_i notBetter
      refine ⟨earlier, later ++ [id], by simp, lower, ?_⟩
      intro other member
      rcases List.mem_append.mp member with old | last
      · exact notHigher other old
      · rw [List.mem_singleton.mp last]
        omega

theorem rule_true (choice : ForkChoice β) : Rule choice fun _ _ _ => True where
  genesis _ := trivial
  stable _ _ := trivial
  extend _ _ _ _ := trivial

theorem rule_picks {choice : ForkChoice β}
    (picks : ∀ tree first second,
      choice tree first second = first ∨ choice tree first second = second) :
    Rule choice fun _ ids head => head ∈ ids where
  genesis _ := List.mem_singleton_self genesisId
  stable _ member := member
  extend {tree _ head id} _ _ _ member := by
    rcases picks tree head id with keeps | moves
    · rw [keeps]
      exact List.mem_append_left _ member
    · rw [moves]
      exact List.mem_append_right _ (List.mem_singleton_self id)

theorem longest_picks (tree : BlockTree β) (first second : Nat) :
    tree.longest first second = first ∨ tree.longest first second = second := by
  unfold longest
  split
  · split
    · exact .inr rfl
    · exact .inl rfl
  · exact .inl rfl

/-! Heads and receipts -/

/-- What can happen to a tree whose heads a fork choice moves. -/
inductive Growth (choice : ForkChoice β) : BlockTree β → BlockTree β → Prop
  | same (tree : BlockTree β) : Growth choice tree tree
  | joined (tree : BlockTree β) : Growth choice tree tree.addNode
  | created {tree after : BlockTree β} {proposal : BlockProposal β} {id : Nat}
      (inserted : tree.insert proposal = .ok (id, after)) : Growth choice tree after
  | accepted {tree : BlockTree β} {node id : Nat} {block : Block β}
      (known : node < tree.received.length) (found : tree.block? id = some block)
      (valid : block.valid = true) (new : tree.hasReceived node id = false)
      (alone : tree.conflicting block = none) :
      Growth choice tree
        ((tree.receive node block.id).setHead node
          (choice (tree.receive node block.id)
            ((tree.heads[node]?).getD genesisId) block.id))

structure Headed (good : BlockTree β → List Nat → Nat → Prop) (tree : BlockTree β) : Prop
    where
  views : tree.heads.length = tree.received.length
  chosen : ∀ {node : Nat} {ids : List Nat} {head : Nat}, tree.received[node]? = some ids →
    tree.heads[node]? = some head → good tree ids head

variable {choice : ForkChoice β} {good : BlockTree β → List Nat → Nat → Prop}

theorem headed_new (payload : β) : (new payload).Headed good where
  views := rfl
  chosen := nofun

theorem Growth.coherent (growth : Growth choice tree after) (coherent : tree.Coherent) :
    after.Coherent := by
  cases growth with
  | same => exact coherent
  | joined => exact coherent.addNode
  | created inserted => exact coherent.insert inserted
  | accepted known found valid _ alone =>
      exact (coherent.receive known found valid alone).setHead _ _

theorem isAccepted_of_received (received : tree.received[node]? = some ids)
    (member : id ∈ ids) : tree.IsAccepted id := by
  refine .inr ⟨node, ?_⟩
  rw [hasReceived, received, Option.getD_some, List.contains_iff_mem]
  exact member

theorem Headed.addNode (rule : Rule choice good) (headed : tree.Headed good) :
    tree.addNode.Headed good where
  views := by simp [BlockTree.addNode, headed.views]
  chosen {node ids head} received chosen := by
    have views := headed.views
    have sameBlocks : ∀ {ids head}, good tree ids head → good tree.addNode ids head :=
      rule.stable fun _ _ => rfl
    simp only [BlockTree.addNode, List.getElem?_append, views] at received chosen
    split at received <;> rename_i bound
    · rw [if_pos bound] at chosen
      exact sameBlocks (headed.chosen received chosen)
    · rw [if_neg bound] at chosen
      rw [List.getElem?_singleton] at received chosen
      split at received
      · cases received
        rename_i last
        rw [if_pos last] at chosen
        cases chosen
        exact rule.genesis _
      · cases received

theorem Headed.insert (rule : Rule choice good) (coherent : tree.Coherent)
    (headed : tree.Headed good) {proposal : BlockProposal β}
    (inserted : tree.insert proposal = .ok (id, after)) : after.Headed good := by
  obtain ⟨created, -, -, blocks, -, received⟩ := insert_eq_ok inserted
  have heads : after.heads = tree.heads := by
    unfold BlockTree.insert at inserted
    split at inserted
    · cases inserted
    · split at inserted <;> cases inserted
      rfl
  refine ⟨by rw [heads, received, headed.views], ?_⟩
  intro node ids head known chosen
  rw [received] at known
  rw [heads] at chosen
  refine rule.stable ?_ (headed.chosen known chosen)
  intro other member
  obtain ⟨block, found, -⟩ := coherent.exists_block (isAccepted_of_received known member)
  rw [found]
  exact (block?_of_append blocks).mpr (.inl found)

theorem received_receive (tree : BlockTree β) (node id other : Nat) :
    (tree.receive node id).received[other]? =
      if node = other then (tree.received[other]?).map (· ++ [id]) else tree.received[other]? := by
  simp only [receive, List.getElem?_modify]
  by_cases same : node = other <;> simp [same]

theorem Headed.receive (rule : Rule choice good) (headed : tree.Headed good)
    (known : node < tree.received.length) (coherent : (tree.receive node id).Coherent) :
    ((tree.receive node id).setHead node
      (choice (tree.receive node id) ((tree.heads[node]?).getD genesisId) id)).Headed good where
  views := by simp [setHead, BlockTree.receive, headed.views]
  chosen {other ids head} received chosen := by
    have present : node < tree.heads.length := headed.views ▸ known
    obtain ⟨old, oldHead⟩ : ∃ old, tree.heads[node]? = some old :=
      ⟨_, List.getElem?_eq_getElem present⟩
    have sameBlocks : ∀ {ids head}, good tree ids head → good (tree.receive node id) ids head :=
      rule.stable fun _ _ => rfl
    have sameHeads : ∀ best {ids head}, good (tree.receive node id) ids head →
        good ((tree.receive node id).setHead node best) ids head :=
      fun _ => rule.stable fun _ _ => rfl
    refine sameHeads _ ?_
    have isReceived : (tree.receive node id).received[other]? = some ids := received
    have isChosen : (tree.heads.set node _)[other]? = some head := chosen
    rw [received_receive] at isReceived
    rw [List.getElem?_set] at isChosen
    by_cases same : node = other
    · subst same
      rw [if_pos rfl, Option.map_eq_some_iff] at isReceived
      rw [if_pos rfl, if_pos present, oldHead, Option.getD_some, Option.some.injEq] at isChosen
      obtain ⟨before, beforeReceived, rfl⟩ := isReceived
      subst isChosen
      have accepted : ∀ other ∈ before ++ [id], (tree.receive node id).IsAccepted other := by
        intro other member
        have afterReceived : (tree.receive node id).received[node]? = some (before ++ [id]) := by
          rw [received_receive, if_pos rfl, beforeReceived, Option.map_some]
        exact isAccepted_of_received afterReceived member
      refine rule.extend coherent (accepted id (by simp)) ?_
        (sameBlocks (headed.chosen beforeReceived oldHead))
      exact fun other member => accepted other (List.mem_append_left _ member)
    · rw [if_neg same] at isReceived isChosen
      exact sameBlocks (headed.chosen isReceived isChosen)

theorem Growth.headed (rule : Rule choice good) (growth : Growth choice tree after)
    (coherent : tree.Coherent) (headed : tree.Headed good) : after.Headed good := by
  cases growth with
  | same => exact headed
  | joined => exact headed.addNode rule
  | created inserted => exact headed.insert rule coherent inserted
  | accepted known found valid _ alone =>
      exact headed.receive rule known (coherent.receive known found valid alone)

end BlockTree

section Heads

variable {P : Protocol}

namespace Network

variable {network after : Network P} {good : BlockTree P.Payload → List Nat → Nat → Prop}
variable {kept : Prop}

structure Guided (good : BlockTree P.Payload → List Nat → Nat → Prop) (network : Network P) :
    Prop where
  viewed : network.Viewed
  coherent : network.tree.Coherent
  headed : network.tree.Headed good

theorem guided_new (config : NetworkConfig) (latency : Latency) (genesis : P.Payload) :
    (new config latency genesis : Network P).Guided good where
  viewed := rfl
  coherent := BlockTree.coherent_new genesis
  headed := BlockTree.headed_new genesis

theorem Guided.of_same (guided : network.Guided good) (tree : after.tree = network.tree)
    (nodes : after.nodeCount = network.nodeCount) : after.Guided good where
  viewed := by
    unfold Viewed
    rw [tree, nodes]
    exact guided.viewed
  coherent := tree ▸ guided.coherent
  headed := tree ▸ guided.headed

/-- The fork choice is asked exactly when a node receives a block. -/
theorem Change.growth (change : Change kept network after) (viewed : network.Viewed) :
    BlockTree.Growth P.forkChoice network.tree after.tree := by
  cases change with
  | draw | enlist | divide | heal | link | unlink | build | mark | edit =>
      exact .same network.tree
  | settle =>
      rw [tree_commitFate]
      exact .same network.tree
  | join => exact .joined network.tree
  | insert _ inserted => exact .created inserted
  | receive known created valid new alone =>
      exact .accepted (viewed ▸ known) (BlockTree.block_eq_ok_iff.mp created) valid new alone

theorem Change.guided (rule : BlockTree.Rule P.forkChoice good)
    (change : Change kept network after) (guided : network.Guided good) :
    after.Guided good := by
  have growth := change.growth guided.viewed
  exact ⟨change.viewed guided.viewed, growth.coherent guided.coherent,
    growth.headed rule guided.coherent guided.headed⟩

theorem Changes.guided (rule : BlockTree.Rule P.forkChoice good)
    (changes : Changes kept network after) (guided : network.Guided good) :
    after.Guided good := by
  induction changes with
  | refl => exact guided
  | tail _ change induction => exact change.guided rule induction

/-- A network that some life comes to, with all that has happened until then. -/
inductive ReachedBy : Network P → List (Moment P) → Prop
  | life {α : Type} (behaviour : Behaviour P) (config : NetworkConfig) (latency : Latency)
      (genesis : P.Payload) (life : Program P α) (fuel : Nat) {past rest : List (Moment P)}
      (lived : (life.record (recordRun behaviour fuel) (.new config latency genesis)).history =
        past ++ rest) :
      ReachedBy (stateAfter (.new config latency genesis) past) past

end Network

variable {behaviour : Behaviour P} {permitted : Op P → Prop}
variable {good : BlockTree P.Payload → List Nat → Nat → Prop}

theorem Moment.Lawful.guided {moment : Moment P} (lawful : moment.Lawful behaviour permitted)
    (rule : BlockTree.Rule P.forkChoice good) (guided : moment.before.Guided good) :
    moment.after.Guided good := by
  cases lawful with
  | operated quiet _ performed =>
      have changes : Network.Changes False _ _ :=
        Network.changes_perform quiet False.elim performed
      exact changes.guided rule guided
  | began started =>
      obtain ⟨-, -, rfl⟩ := Network.start_eq_ok started
      exact guided.of_same rfl rfl
  | took popped =>
      exact guided.of_same (Network.tree_countEvent ..) (Network.nodeCount_countEvent ..)
  | rearmed _ _ _ | halted _ | finished _ => exact guided.of_same rfl rfl

namespace Network

variable {network : Network P} {past : List (Moment P)}

theorem ReachedBy.guided (reached : network.ReachedBy past)
    (rule : BlockTree.Rule P.forkChoice good) : network.Guided good := by
  cases reached with
  | life _ config latency genesis _ _ lived =>
      exact (Program.past_passes lived).preserves
        (motive := fun _ network => network.Guided good)
        (guided_new config latency genesis) fun _ _ lawful => lawful.guided rule

theorem ReachedBy.receipts (reached : network.ReachedBy past) :
    BlockTree.Receipts (acceptances past) network.tree := by
  cases reached with
  | life _ config latency genesis _ _ lived =>
      obtain ⟨-, -, receipts⟩ := (Program.past_passes lived).receipts rfl
        (BlockTree.coherent_new genesis) ⟨nofun, nofun, .nil⟩
      exact receipts

variable {node : Nat}

/-- The blocks of a node in the order in which it came to have them. -/
def blocksOf (past : List (Moment P)) (node : Nat) : List Nat :=
  genesisId :: ((acceptances past).filter (·.1 = node)).map (·.2)

theorem ReachedBy.received (reached : network.ReachedBy past)
    (known : node < network.nodeCount) :
    network.tree.received[node]? = some (blocksOf past node) := by
  have guided := reached.guided (BlockTree.rule_true P.forkChoice)
  exact reached.receipts.received node (guided.viewed ▸ known)

theorem ReachedBy.hasReceived_iff (reached : network.ReachedBy past)
    (known : node < network.nodeCount) {id : Nat} :
    network.tree.hasReceived node id = true ↔ id ∈ blocksOf past node := by
  rw [BlockTree.hasReceived, reached.received known, Option.getD_some, List.contains_iff_mem]

theorem ReachedBy.head_spec (reached : network.ReachedBy past)
    (rule : BlockTree.Rule P.forkChoice good) (known : node < network.nodeCount) {head : Nat}
    (isHead : network.tree.head node = .ok head) :
    good network.tree (blocksOf past node) head := by
  have guided := reached.guided rule
  refine guided.headed.chosen (reached.received known) ?_
  unfold BlockTree.head at isHead
  cases found : network.tree.heads[node]? with
  | none =>
      rw [found] at isHead
      cases isHead
  | some current =>
      rw [found] at isHead
      cases isHead
      rfl

theorem ReachedBy.exists_head (reached : network.ReachedBy past)
    (known : node < network.nodeCount) :
    ∃ head, network.tree.head node = .ok head := by
  have guided := reached.guided (BlockTree.rule_true P.forkChoice)
  have bound : node < network.tree.heads.length := by
    rw [guided.headed.views, guided.viewed]
    exact known
  refine ⟨network.tree.heads[node], ?_⟩
  rw [BlockTree.head, List.getElem?_eq_getElem bound]

/-- Under the longest chain the head of a node is the best of all that it has received, in
whatever order that came. Under the rule that only moves up it is the first of the highest. -/
theorem heads_chosen (reached : network.ReachedBy past) (known : node < network.nodeCount) :
    network.tree.received[node]? = some (blocksOf past node) ∧
    ∃ head, network.tree.head node = .ok head ∧
      (P.forkChoice = BlockTree.longest →
        network.tree.Longest (blocksOf past node) head ∧
        ∀ {other : Network P} {otherPast : List (Moment P)} {otherNode : Nat},
          other.ReachedBy otherPast → otherNode < other.nodeCount →
          (∀ id, network.tree.hasReceived node id = other.tree.hasReceived otherNode id) →
          (∀ id, network.tree.hasReceived node id = true →
            other.tree.block? id = network.tree.block? id) →
          other.tree.head otherNode = .ok head) ∧
      (P.forkChoice = BlockTree.higher →
        network.tree.FirstHighest (blocksOf past node) head) ∧
      ((∀ tree first second,
          P.forkChoice tree first second = first ∨ P.forkChoice tree first second = second) →
        network.tree.hasReceived node head = true) := by
  obtain ⟨head, isHead⟩ := reached.exists_head known
  refine ⟨reached.received known, head, isHead, ?_, ?_, ?_⟩
  · intro isLongest
    have rule : BlockTree.Rule P.forkChoice BlockTree.Longest :=
      isLongest ▸ BlockTree.rule_longest
    have longest := reached.head_spec rule known isHead
    refine ⟨longest, ?_⟩
    intro other otherPast otherNode otherReached otherKnown sameReceived sameBlocks
    obtain ⟨otherHead, otherIsHead⟩ := otherReached.exists_head otherKnown
    have otherLongest := otherReached.head_spec rule otherKnown otherIsHead
    have same : ∀ id, id ∈ blocksOf past node ↔ id ∈ blocksOf otherPast otherNode := by
      intro id
      rw [← reached.hasReceived_iff known, ← otherReached.hasReceived_iff otherKnown,
        sameReceived id]
    have heights : ∀ id ∈ blocksOf past node,
        network.tree.heightOf id = other.tree.heightOf id := by
      intro id member
      have received := (reached.hasReceived_iff known).mpr member
      exact (BlockTree.heightOf_congr (sameBlocks id received)).symm
    rw [otherIsHead, longest.unique otherLongest same heights]
  · intro isHigher
    exact reached.head_spec (isHigher ▸ BlockTree.rule_higher) known isHead
  · intro picks
    rw [reached.hasReceived_iff known]
    exact reached.head_spec (BlockTree.rule_picks picks) known isHead

end Network

def relay.race : Program relay (Except Error Bool) := do
  let _ ← Program.perform (.addNode (.new ⟨0, 0, none⟩ false) ())
  let _ ← Program.perform (.addNode (.new ⟨3, 4, none⟩ false) ())
  let _ ← Program.perform (.createBlock ⟨0, 0, 1, 0, true, ()⟩)
  let _ ← Program.perform (.createBlock ⟨1, 0, 1, 0, true, ()⟩)
  let _ ← Program.perform (.offerBlock 0 2)
  let _ ← Program.perform (.offerBlock 0 1)
  let _ ← Program.perform (.offerBlock 1 1)
  Program.perform (.offerBlock 1 2)

def relay.raced : List (Moment relay) :=
  (relay.race.record (Network.recordRun relay.behaviour 0) relay.initial).history

theorem relay_heads_chosen :
    Network.blocksOf relay.raced 0 = [0, 2, 1] ∧ Network.blocksOf relay.raced 1 = [0, 1, 2] ∧
    (stateAfter relay.initial relay.raced).tree.head 0 = .ok 1 ∧
    (stateAfter relay.initial relay.raced).tree.Longest [0, 2, 1] 1 ∧
    (stateAfter relay.initial relay.raced).tree.head 1 = .ok 1 := by
  have reached : (stateAfter relay.initial relay.raced).ReachedBy relay.raced :=
    .life relay.behaviour {} (LatencyModel.fixed 2).latency () relay.race 0
      (List.append_nil _).symm
  have first : 0 < (stateAfter relay.initial relay.raced).nodeCount := by decide
  obtain ⟨-, head, isHead, longest, -, -⟩ := Network.heads_chosen reached first
  obtain ⟨best, same⟩ := longest rfl
  cases isHead
  refine ⟨rfl, rfl, rfl, best, same reached (by decide) ?_ fun _ _ => rfl⟩
  intro id
  rw [Bool.eq_iff_iff, reached.hasReceived_iff (by decide),
    reached.hasReceived_iff (by decide)]
  exact (List.Perm.swap 1 2 []).cons 0 |>.mem_iff

end Heads

end Simnet
