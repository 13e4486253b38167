import Simnet.Proofs.Heads
import Simnet.Proofs.Lineage
import Simnet.Proofs.NetworkIndexing
import Simnet.Proofs.Registry

namespace Simnet

/-! Indices. Nodes are kept in the registry, in the overlay and in the tree of blocks, and
blocks are kept beside lists of their children. Whatever is looked up in one of these lists
was checked against another one, so that all of them must have the same length. -/

section Alignment

variable {P : Protocol}

def Event.KnownAmong (count : Nat) : Event P → Prop
  | .delivery sender receiver _ => sender < count ∧ receiver < count
  | .task record => record.owner < count

theorem Event.KnownAmong.mono {event : Event P} {count more : Nat}
    (known : event.KnownAmong count) (grown : count ≤ more) : event.KnownAmong more := by
  cases event with
  | delivery sender receiver message =>
      exact ⟨Nat.lt_of_lt_of_le known.1 grown, Nat.lt_of_lt_of_le known.2 grown⟩
  | task record => exact Nat.lt_of_lt_of_le known grown

theorem Event.KnownAmong.node {event : Event P} {count : Nat}
    (known : event.KnownAmong count) : event.node < count := by
  cases event with
  | delivery sender receiver message => exact known.2
  | task record => exact known

namespace Network

variable {network after : Network P} {kept : Prop}

/-- All that the layers and the queue say of nodes and blocks is about nodes of the registry
and blocks that were created. -/
structure Aligned (network : Network P) : Prop where
  peerLists : network.overlay.peerLists.length = network.nodeCount
  peers : ∀ node, ∀ peer ∈ network.overlay.peers node, peer < network.nodeCount
  rows : ∀ row ∈ network.overlay.seen, row.2.length ≤ network.nodeCount
  heads : network.tree.heads.length = network.nodeCount
  received : network.tree.received.length = network.nodeCount
  receivedIds : ∀ ids ∈ network.tree.received, ∀ id ∈ ids, id < network.tree.length
  accepted : ∀ id ∈ network.tree.accepted, id < network.tree.length
  heights : ∀ height, ∀ id ∈ network.tree.heightIndex.idsAt height, id < network.tree.length
  genesis : genesisId < network.tree.length
  parents : ∀ block ∈ network.tree.blocks, ∀ parent, block.parent = some parent →
    parent < network.tree.length
  childLists : network.tree.childLists.length = network.tree.length
  children : ∀ ids ∈ network.tree.childLists, ∀ id ∈ ids, id < network.tree.length
  pending : ∀ entry ∈ network.queue.items, entry.2.KnownAmong network.nodeCount

/-! Events and marks -/

/-- Whoever is named in the queue is a node, and the ledger of the floods has no bit for anyone
who is not. -/
structure Peopled (network : Network P) : Prop where
  narrow : network.overlay.Narrow
  pending : ∀ entry ∈ network.queue.items, entry.2.KnownAmong network.nodeCount

theorem Peopled.of_same (peopled : network.Peopled) (seen : after.overlay.seen = network.overlay.seen)
    (wider : network.overlay.nodeCount ≤ after.overlay.nodeCount)
    (queue : after.queue = network.queue) (grown : network.nodeCount ≤ after.nodeCount) :
    after.Peopled where
  narrow := peopled.narrow.of_seen_eq seen wider
  pending := by
    rw [queue]
    exact fun entry member => (peopled.pending entry member).mono grown

theorem Peopled.push (peopled : network.Peopled) {time : Nat} {event : Event P}
    (overlay : after.overlay = network.overlay)
    (queue : after.queue = network.queue.push time event)
    (nodes : after.nodeCount = network.nodeCount)
    (known : event.KnownAmong network.nodeCount) : after.Peopled where
  narrow := by
    rw [overlay]
    exact peopled.narrow
  pending := by
    rw [queue, nodes]
    intro entry member
    rcases EventQueue.mem_push.mp member with rfl | old
    · exact known
    · exact peopled.pending entry old

theorem Change.peopled (change : Change kept network after) (peopled : network.Peopled) :
    after.Peopled := by
  cases change with
  | draw | divide | heal | insert | receive =>
      exact peopled.of_same rfl (Nat.le_refl _) rfl (Nat.le_refl _)
  | link =>
      exact peopled.of_same rfl (Nat.le_of_eq (Overlay.nodeCount_link ..).symm) rfl (Nat.le_refl _)
  | unlink =>
      exact peopled.of_same rfl (Nat.le_of_eq (Overlay.nodeCount_unlink ..).symm) rfl
        (Nat.le_refl _)
  | edit =>
      exact peopled.of_same rfl (Nat.le_refl _) rfl
        (Nat.le_of_eq (nodeCount_modifyNode ..).symm)
  | join =>
      refine peopled.of_same rfl ?_ rfl ?_
      · simp [joined, Overlay.addNode, Overlay.nodeCount]
      · simp [joined, nodeCount]
  | @settle _ sender decision senderKnown receiverKnown _ =>
      obtain ⟨receiver, fate⟩ := decision
      cases fate with
      | deliver arrival =>
          exact peopled.push rfl rfl (nodeCount_commitFate ..) ⟨senderKnown, receiverKnown⟩
      | _ => exact peopled.of_same rfl (Nat.le_refl _) rfl (Nat.le_refl _)
  | enlist _ known _ _ => exact peopled.push rfl rfl rfl known
  | @build config _ =>
      exact peopled.of_same (Overlay.seen_build ..)
        (Nat.le_of_eq (Overlay.nodeCount_build ..).symm) rfl (Nat.le_refl _)
  | @mark messageId node _ => exact ⟨peopled.narrow.markSeen messageId node, peopled.pending⟩

theorem Changes.peopled (changes : Changes kept network after) (peopled : network.Peopled) :
    after.Peopled := by
  induction changes with
  | refl => exact peopled
  | tail _ change induction => exact change.peopled induction

theorem overflow_of_refused {behaviour : Behaviour P} {event : Event P} {time : Nat}
    {error : Error} (known : event.KnownAmong network.nodeCount)
    (refused : network.reaction behaviour time event = .refused error) :
    ∃ record wait, event = .task record ∧ record.kind.period? = some wait ∧
      maxTime < time + wait ∧ error = .invalidParameter (.timeOverflow time wait) := by
  obtain ⟨node, found⟩ : ∃ node, network.node? event.node = some node :=
    ⟨_, List.getElem?_eq_getElem known.node⟩
  cases event with
  | delivery sender receiver message =>
      have present : network.node? receiver = some node := found
      simp only [reaction, present] at refused
      split at refused <;> cases refused
  | task record =>
      have present : network.node? record.owner = some node := found
      simp only [reaction, present] at refused
      split at refused
      · cases refused
      · split at refused
        · rename_i failed
          cases refused
          unfold nextInstant at failed
          split at failed
          · cases failed
          · rename_i wait period
            split at failed
            · rename_i late
              cases failed
              obtain ⟨beyond, rfl⟩ := timeAfter_eq_error_iff.mp late
              exact ⟨record, wait, rfl, period, beyond, rfl⟩
            · cases failed
        · split at refused <;> cases refused

/-! The layers together -/

theorem aligned_of (wired : network.Wired)
    (guided : network.Guided fun _ _ _ => True) (lineage : network.tree.Lineage)
    (peopled : network.Peopled) : network.Aligned := by
  obtain ⟨viewed, coherent, headed⟩ := guided
  have created : ∀ {id}, network.tree.IsAccepted id → id < network.tree.length := by
    intro id accepted
    obtain ⟨block, found, -⟩ := coherent.exists_block accepted
    exact BlockTree.lt_length_of_block? found
  constructor
  case peerLists => exact wired.count
  case peers => exact fun node peer linked => wired.known_of_mem_peers linked
  case rows =>
    rw [← wired.count]
    exact peopled.narrow
  case heads => exact headed.views.trans viewed
  case received => exact viewed
  case receivedIds =>
    intro ids listed id member
    obtain ⟨node, received⟩ := List.mem_iff_getElem?.mp listed
    exact created (BlockTree.isAccepted_of_received received member)
  case accepted => exact fun id listed => created ((coherent.held id).mp listed)
  case heights =>
    intro height id under
    rw [coherent.idsAt_heightIndex] at under
    obtain ⟨block, member, rfl⟩ := List.mem_map.mp under
    have accepted := (BlockTree.mem_blocksAtHeight.mp member).1
    exact BlockTree.lt_length_of_block? (coherent.block?_of_accepted accepted)
  case genesis => exact created (.inl rfl)
  case parents =>
    intro block member parent names
    obtain ⟨id, found⟩ := BlockTree.mem_blocks.mp member
    obtain ⟨above, parentFound, -⟩ := lineage.descends found names
    exact BlockTree.lt_length_of_block? parentFound
  case childLists => rw [lineage.listed, List.length_map, List.length_range]
  case children => exact fun ids listed id => lineage.lt_of_mem_children listed
  case pending => exact peopled.pending

theorem Aligned.head_created (aligned : network.Aligned)
    (headed : network.tree.Headed fun _ ids head => head ∈ ids) {head : Nat}
    (listed : head ∈ network.tree.heads) : head < network.tree.length := by
  obtain ⟨node, chosen⟩ := List.mem_iff_getElem?.mp listed
  obtain ⟨inside, -⟩ := List.getElem?_eq_some_iff.mp chosen
  rw [headed.views] at inside
  have received := List.getElem?_eq_getElem inside
  exact aligned.receivedIds _ (List.getElem_mem inside) head (headed.chosen received chosen)

end Network

variable {behaviour : Behaviour P} {good : Op P → Prop} {moment : Moment P}
variable {start stop : Network P} {past : List (Moment P)}

theorem Moment.Grounded.peopled (grounded : moment.Grounded behaviour good)
    (peopled : moment.before.Peopled) : moment.after.Peopled := by
  obtain ⟨lawful, owned⟩ := grounded
  cases lawful with
  | operated quiet _ performed =>
      have changes : Network.Changes False _ _ :=
        Network.changes_perform quiet False.elim performed
      exact changes.peopled peopled
  | began started =>
      obtain ⟨-, -, rfl⟩ := Network.start_eq_ok started
      exact peopled.of_same rfl (Nat.le_refl _) rfl (Nat.le_refl _)
  | @took before queue key event deadline popped =>
      obtain ⟨items, -, -⟩ := EventQueue.popDue_eq_some_iff.mp popped
      have arrived : (before.arrive queue key.time).Peopled := by
        refine ⟨peopled.narrow, ?_⟩
        intro entry member
        apply peopled.pending
        rw [items]
        exact List.mem_cons_of_mem _ member
      have overlay := Network.overlay_countEvent (before.arrive queue key.time) event
        ((before.arrive queue key.time).reaction behaviour key.time event)
      refine arrived.of_same (congrArg Overlay.seen overlay) ?_ (Network.queue_countEvent ..)
        (Nat.le_of_eq (Network.nodeCount_countEvent ..).symm)
      rw [overlay]
  | rearmed network record next =>
      -- The owner was found when the task was taken off.
      exact peopled.push rfl rfl rfl (owned record next rfl)
  | halted _ | finished _ => exact peopled.of_same rfl (Nat.le_refl _) rfl (Nat.le_refl _)

theorem Moment.Lawful.lineage (lawful : moment.Lawful behaviour good)
    (viewed : moment.before.Viewed) (lineage : moment.before.tree.Lineage) :
    moment.after.tree.Lineage :=
  (lawful.step viewed).lineage lineage

theorem Passes.aligned (passes : Passes (Moment.Grounded behaviour good) start past stop)
    (wired : start.Wired) (guided : start.Guided fun _ _ _ => True)
    (lineage : start.tree.Lineage) (peopled : start.Peopled) : stop.Aligned := by
  obtain ⟨wired, guided, lineage, peopled⟩ := passes.preserves
    (motive := fun _ network => network.Wired ∧ (network.Guided fun _ _ _ => True) ∧
      network.tree.Lineage ∧ network.Peopled) ⟨wired, guided, lineage, peopled⟩ <| by
    rintro earlier moment grounded ⟨wired, guided, lineage, peopled⟩
    have lawful := grounded.lawful
    exact ⟨lawful.wired wired, lawful.guided (BlockTree.rule_true P.forkChoice) guided,
      lawful.lineage guided.viewed lineage, grounded.peopled peopled⟩
  exact Network.aligned_of wired guided lineage peopled

theorem Passes.overflow_of_refused
    (passes : Passes (Moment.Grounded behaviour good) start past stop)
    (peopled : start.Peopled) :
    ∀ moment ∈ past, ∀ key event error,
      moment.happening = .took key event (.refused error) →
      ∃ record wait, event = .task record ∧ record.kind.period? = some wait ∧
        maxTime < key.time + wait ∧
        error = .invalidParameter (.timeOverflow key.time wait) := by
  refine passes.forall_mem peopled (fun _ grounded => grounded.peopled) ?_
  intro moment grounded peopled key event error took
  obtain ⟨lawful, -⟩ := grounded
  cases lawful with
  | @took before queue key event deadline popped =>
      simp only [Happening.took.injEq] at took
      obtain ⟨rfl, rfl, refused⟩ := took
      have known : event.KnownAmong (before.arrive queue key.time).nodeCount :=
        peopled.pending (key, event) (EventQueue.mem_of_popDue popped)
      exact Network.overflow_of_refused known refused
  | operated | began | rearmed | halted | finished => cases took

/-- In every network that a life comes to, in the middle of its runs as well, the operations
end as they do with a check at every place that they reach. -/
theorem Program.indices_safe {α : Type} (behaviour : Behaviour P) (config : NetworkConfig)
    (latency : Latency) (genesis : P.Payload) (life : Program P α) (fuel : Nat)
    {past rest : List (Moment P)}
    (lived : (life.record (Network.recordRun behaviour fuel)
      (.new config latency genesis)).history = past ++ rest)
    (network : Network P) (reached : network = stateAfter (.new config latency genesis) past) :
    network.Aligned ∧
    (∀ op : Op P, op.perform? network = op.perform Op.idle network ∧
      (op.isRun = false → (op.perform? network).isSome = true)) ∧
    (∃ block, network.tree.genesis? = some block) ∧
    (∀ height,
      network.tree.blocksAtHeight? height = some (network.tree.blocksAtHeight height)) ∧
    (∀ samples scratch,
      network.estimateLatency? samples scratch =
        some (network.estimateLatency samples scratch) ∧
      network.estimateOverlayLatency? samples scratch =
        some (network.estimateOverlayLatency samples scratch)) ∧
    (behaviour.All Op.KeepsIds → life.All Op.KeepsIds →
      ∀ id node, network.node? id = some node → node.info.id = id) ∧
    ((∀ tree first second,
        P.forkChoice tree first second = first ∨ P.forkChoice tree first second = second) →
      ∀ head ∈ network.tree.heads, head < network.tree.length) ∧
    ∀ moment ∈ past, ∀ key event error,
      moment.happening = .took key event (.refused error) →
      ∃ record wait, event = .task record ∧ record.kind.period? = some wait ∧
        maxTime < key.time + wait ∧
        error = .invalidParameter (.timeOverflow key.time wait) := by
  subst reached
  have lives : (stateAfter (.new config latency genesis) past).ReachedBy past :=
    .life behaviour config latency genesis life fuel lived
  have passes : Passes (Moment.Grounded behaviour fun _ => True) _ past _ :=
    (life_grounded (behaviour.all_of_forall fun _ => trivial)
      (life.all_of_forall fun _ => trivial) fuel (.new config latency genesis)).past lived
  have unpeopled : (Network.new config latency genesis : Network P).Peopled :=
    ⟨List.forall_mem_nil _, List.forall_mem_nil _⟩
  have aligned := passes.aligned (Network.wired_new config latency genesis)
    (Network.guided_new config latency genesis) (BlockTree.lineage_new genesis) unpeopled
  have wired := lives.wired
  have coherent := (lives.guided (BlockTree.rule_true P.forkChoice)).coherent
  have checks := Op.perform?_eq wired coherent aligned.childLists aligned.received aligned.heads
  refine ⟨aligned, fun op => ⟨checks op, ?_⟩, ?_, coherent.blocksAtHeight?_eq,
    fun samples scratch => ⟨Network.estimateLatency?_eq _ samples scratch,
      wired.estimateOverlayLatency?_eq samples scratch⟩, ?_, ?_, passes.overflow_of_refused unpeopled⟩
  · intro quiet
    rw [checks op]
    exact Op.isSome_perform quiet _
  · exact ⟨_, List.getElem?_eq_getElem aligned.genesis⟩
  · intro bodies keeps
    have careful := (life_obeys bodies keeps fuel (.new config latency genesis)).past lived
    exact careful.registered nofun
  · intro picks head listed
    exact aligned.head_created (lives.guided (BlockTree.rule_picks picks)).headed listed

def relay.founding : Program relay (Except Error Unit) := do
  let _ ← Program.perform (.addNode (.new ⟨0, 0, none⟩ false) ())
  let _ ← Program.perform (.createBlock ⟨0, 0, 1, 0, true, ()⟩)
  let _ ← Program.perform (.offerBlock 0 1)
  let _ ← Program.perform (.addNode (.new ⟨3, 4, none⟩ false) ())
  let _ ← Program.perform (.createLink 0 1)
  let _ ← Program.perform (P := relay) (.sendToMany 1 0 0 [1])
  let _ ← Program.perform (P := relay) (.schedule () 3 1 (.periodic 4))
  Program.perform (.runUntil 9)

def relay.founded : List (Moment relay) :=
  (relay.founding.record (Network.recordRun relay.behaviour 5) relay.initial).history

theorem relay_indices_safe :
    (stateAfter relay.initial relay.founded).Aligned ∧
    (Op.perform? (stateAfter relay.initial relay.founded)
      (.flood 1 ⟨7, 0, 0⟩ 1)).isSome = true ∧
    ((stateAfter relay.initial relay.founded).tree.blocksAtHeight? 1).isSome = true ∧
    (∀ id node, (stateAfter relay.initial relay.founded).node? id = some node →
      node.info.id = id) ∧
    (stateAfter relay.initial relay.founded).tree.heads = [1, 0] ∧
    (∀ head ∈ (stateAfter relay.initial relay.founded).tree.heads,
      head < (stateAfter relay.initial relay.founded).tree.length) ∧
    (taken relay.founded).map (·.1) = [⟨2, 0⟩, ⟨3, 1⟩, ⟨4, 2⟩, ⟨7, 3⟩] ∧
    ∀ moment ∈ relay.founded, ∀ key event id,
      moment.happening ≠ .took key event (.refused (.unknownNode id)) := by
  obtain ⟨aligned, checks, -, heights, -, registered, created, overflow⟩ :=
    Program.indices_safe relay.behaviour {} (LatencyModel.fixed 2).latency () relay.founding 5
      (List.append_nil _).symm (stateAfter relay.initial relay.founded) rfl
  have keeps : relay.founding.All Op.KeepsIds :=
    ⟨trivial, fun _ => ⟨trivial, fun _ => ⟨trivial, fun _ => ⟨trivial, fun _ => ⟨trivial,
      fun _ => ⟨trivial, fun _ => ⟨trivial, fun _ => ⟨trivial, fun _ => trivial⟩⟩⟩⟩⟩⟩⟩⟩
  refine ⟨aligned, (checks _).2 rfl, Option.isSome_of_eq_some (heights 1),
    registered relay_keepsIds keeps, rfl, created BlockTree.longest_picks, rfl, ?_⟩
  intro moment member key event id refused
  obtain ⟨record, wait, -, -, -, isOverflow⟩ := overflow moment member key event _ refused
  cases isOverflow

end Alignment

end Simnet
