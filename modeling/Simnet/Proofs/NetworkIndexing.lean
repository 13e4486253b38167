import Simnet.Proofs.Estimates
import Simnet.Proofs.HeightIndex
import Simnet.Proofs.Lineage
import Simnet.Proofs.OverlayIndexing

namespace Simnet

/-! Unchecked places in the registry and in the tree of blocks, and the operations of a network
with a check at every place that they reach. -/

theorem mapM_eq_some_self {α : Type} {items : List α} {read : α → Option α}
    (found : ∀ item ∈ items, read item = some item) : items.mapM read = some items := by
  induction items with
  | nil => rfl
  | cons item rest induction =>
      obtain ⟨first, later⟩ := List.forall_mem_cons.mp found
      rw [List.mapM_cons, first, induction later]
      rfl

namespace BlockTree

variable {β : Type} {tree : BlockTree β} {node id : Nat}

def insert? (tree : BlockTree β) (proposal : BlockProposal β) :
    Option (Except Error (Nat × BlockTree β)) :=
  match tree.insert proposal with
  | .error error => some (.error error)
  | .ok (id, after) => do
      let childLists ← modifyAt? (tree.childLists ++ [[]]) proposal.parent (· ++ [id])
      return .ok (id, { after with childLists := childLists })

def blocksAtHeight? (tree : BlockTree β) (height : Nat) : Option (List (Block β)) :=
  (tree.heightIndex.idsAt height).mapM tree.block?

def conflicting? (tree : BlockTree β) (block : Block β) : Option (Option (Nat × Nat)) :=
  match block.producer with
  | none => some none
  | some producer => do
      let blocks ← tree.blocksAtHeight? block.height
      return (blocks.find? fun other =>
        other.id ≠ block.id ∧ other.producer = some producer).map
          fun other => (producer, other.id)

def receive? (tree : BlockTree β) (node block : Nat) : Option (BlockTree β) := do
  let received ← modifyAt? tree.received node (· ++ [block])
  return { tree.receive node block with received := received }

def setHead? (tree : BlockTree β) (node head : Nat) : Option (BlockTree β) := do
  let heads ← setAt? tree.heads node head
  return { tree with heads := heads }

theorem insert?_eq (childLists : tree.childLists.length = tree.length)
    (proposal : BlockProposal β) : tree.insert? proposal = some (tree.insert proposal) := by
  unfold insert?
  cases inserted : tree.insert proposal with
  | error error => rfl
  | ok created =>
      obtain ⟨id, after⟩ := created
      obtain ⟨above, block, found, -, rfl, -, rfl⟩ := insert_eq_ok_iff.mp inserted
      have inside : proposal.parent < (tree.childLists ++ [[]]).length := by
        have known := lt_length_of_block? found
        rw [List.length_append, childLists]
        omega
      dsimp only
      rw [modifyAt?_eq inside]
      rfl

theorem Coherent.blocksAtHeight?_eq (coherent : tree.Coherent) (height : Nat) :
    tree.blocksAtHeight? height = some (tree.blocksAtHeight height) := by
  rw [blocksAtHeight?, coherent.idsAt_heightIndex, List.mapM_map]
  exact mapM_eq_some_self fun block member =>
    coherent.block?_of_accepted (mem_blocksAtHeight.mp member).1

theorem Coherent.conflicting?_eq (coherent : tree.Coherent) (block : Block β) :
    tree.conflicting? block = some (tree.conflicting block) := by
  unfold conflicting? conflicting
  cases block.producer with
  | none => rfl
  | some producer =>
      dsimp only
      rw [coherent.blocksAtHeight?_eq]
      rfl

theorem receive?_eq (known : node < tree.received.length) (block : Nat) :
    tree.receive? node block = some (tree.receive node block) := by
  rw [receive?, modifyAt?_eq known]
  rfl

theorem setHead?_eq (known : node < tree.heads.length) (head : Nat) :
    tree.setHead? node head = some (tree.setHead node head) := by
  rw [setHead?, setAt?_eq known]
  rfl

end BlockTree

namespace Network

variable {P : Protocol}

/-! Sends -/

def commitFate? (message : P.Message) (sender : Nat) (network : Network P)
    (decision : Nat × Fate) : Option (Network P) :=
  match decision.2 with
  | .deliver _ => do
      let nodes ← modifyAt? network.nodes sender fun node =>
        { node with info := node.info.countSent (P.size message) }
      return { commitFate message sender network decision with nodes := nodes }
  | .down | .partitioned | .discarded => some (commitFate message sender network decision)

def sendToMany? (network : Network P) (message : P.Message) (origin sender : Nat)
    (receivers : List Nat) : Option (Outcome P Unit) :=
  match network.checkSend origin sender receivers with
  | .error error => some (.error error, network)
  | .ok () =>
      match network.fates origin sender receivers network.rng with
      | .error error => some (.error error, network)
      | .ok (fates, rng) => do
          let after ← fates.foldlM (commitFate? message sender) { network with rng := rng }
          return (.ok (), after)

def sendStaggered? (message : P.Message) (sender delay : Nat) :
    (departure : Nat) → List Nat → Network P → Option (Outcome P Unit)
  | _, [], network => some (.ok (), network)
  | departure, receiver :: rest, network => do
      let sent ← network.sendToMany? message departure sender [receiver]
      match sent with
      | (.error error, network) => return (.error error, network)
      | (.ok (), network) =>
          sendStaggered? message sender delay (departure + delay) rest network

/-! The overlay -/

def setPeers? (network : Network P) (config : OverlayConfig) : Option (Outcome P Unit) :=
  match config.validate network.nodeCount with
  | .error error => some (.error error, network)
  | .ok () => do
      let (overlay, rng) ← Overlay.build? network.nodeCount config network.overlay network.rng
      return (.ok (), { network with overlay := overlay, rng := rng })

def createLink? (network : Network P) (first second : Nat) : Option (Outcome P Bool) :=
  match network.checkPair first second with
  | .error error => some (.error error, network)
  | .ok () => do
      let overlay ← network.overlay.link? first second
      return (.ok (! network.overlay.areLinked first second), { network with overlay := overlay })

def removeLink? (network : Network P) (first second : Nat) : Option (Outcome P Bool) :=
  match network.checkPair first second with
  | .error error => some (.error error, network)
  | .ok () => do
      let overlay ← network.overlay.unlink? first second
      return (.ok (network.overlay.areLinked first second), { network with overlay := overlay })

def sendCopies? (network : Network P) (message : P.Message) (header : FloodHeader)
    (node : Nat) (plan : FloodPlan) : Option (Outcome P Unit) :=
  if header.delayBetweenPeers = 0 then
    network.sendToMany? message plan.departure node plan.receivers
  else
    sendStaggered? message node header.delayBetweenPeers plan.departure
      (network.rng.shuffle plan.receivers).1
      { network with rng := (network.rng.shuffle plan.receivers).2 }

def forwardFlood? (network : Network P) (message : P.Message) (header : FloodHeader)
    (node : Nat) (sender : Option Nat) : Option (Outcome P Bool) :=
  match network.planFlood header node sender with
  | .error error => some (.error error, network)
  | .ok none => some (.ok false, network)
  | .ok (some plan) => do
      let overlay ← network.overlay.markSeen? header.messageId node
      let sent ← { network with overlay := overlay }.sendCopies? message header node plan
      return (sent.1.map fun _ => true, sent.2)

def flood? (network : Network P) (message : P.Message) (header : FloodHeader) (origin : Nat) :
    Option (Outcome P Unit) := do
  let forwarded ← network.forwardFlood? message header origin none
  return (forwarded.1.map fun _ => (), forwarded.2)

/-! Blocks -/

def createBlock? (network : Network P) (proposal : BlockProposal P.Payload) :
    Option (Outcome P Nat) :=
  match network.node? proposal.producer with
  | none => some (.error (.unknownNode proposal.producer), network)
  | some _ => do
      let inserted ← network.tree.insert? proposal
      match inserted with
      | .error error => return (.error error, network)
      | .ok (id, tree) => return (.ok id, { network with tree := tree })

def receiveBlock? (network : Network P) (node block : Nat) : Option (Network P) := do
  let tree ← network.tree.receive? node block
  let head ← tree.heads[node]?
  let tree ← tree.setHead? node (P.forkChoice tree head block)
  return { network with tree := tree }

def acceptBlock? (network : Network P) (node : Nat) (block : Block P.Payload) :
    Option (Outcome P Bool) := do
  let rival ← network.tree.conflicting? block
  match rival with
  | some (producer, existing) =>
      if network.config.allowEquivocation then
        return (.ok false, network)
      else
        return (.error (.equivocation producer block.height existing block.id), network)
  | none => do
      let after ← network.receiveBlock? node block.id
      return (.ok true, after)

def offerBlock? (network : Network P) (node id : Nat) : Option (Outcome P Bool) :=
  match network.node? node with
  | none => some (.error (.unknownNode node), network)
  | some _ =>
      match network.tree.block id with
      | .error error => some (.error error, network)
      | .ok block =>
          if ! block.valid || network.tree.hasReceived node id then
            some (.ok false, network)
          else if network.time < block.proposalTime then
            match network.config.earlyBlockPolicy with
            | .accept => network.acceptBlock? node block
            | .reject => some (.ok false, network)
            | .defer => some (network.deferBlock node block)
          else
            network.acceptBlock? node block

/-! Estimates -/

def samplePair? (network : Network P) (rng : Rng) : Option (Option Nat × Rng) :=
  let (first, rng) := rng.below .double network.nodeInfos.length
  let (drawn, rng) := rng.below .double (network.nodeInfos.length - 1)
  let second := if first ≤ drawn then drawn + 1 else drawn
  do
    let sender ← network.nodeInfos[first]?
    let receiver ← network.nodeInfos[second]?
    let (delay, rng) := network.latency.delay sender receiver rng
    return (some delay, rng)

def sampleLink? (network : Network P) (linked : List Nat) (rng : Rng) :
    Option (Option Nat × Rng) :=
  match rng.choose linked with
  | (none, rng) => some (none, rng)
  | (some first, rng) => do
      let peers ← network.overlay.peers? first
      let (index, rng) := rng.below .double peers.length
      match peers[index]? with
      | none => return (none, rng)
      | some second => do
          let sender ← network.node? first
          let receiver ← network.node? second
          let (delay, rng) := network.latency.delay sender.info receiver.info rng
          return (some delay, rng)

def collectSamples? (sample : Rng → Option (Option Nat × Rng)) :
    (count : Nat) → Rng → Option (List Nat × Rng)
  | 0, rng => some ([], rng)
  | count + 1, rng => do
      let (delay, rng) ← sample rng
      let (delays, rng) ← collectSamples? sample count rng
      return (delay.toList ++ delays, rng)

def estimateLatency? (network : Network P) (samples : Nat) (scratch : Rng) :
    Option (Option DelaySummary × Rng) :=
  if network.nodeInfos.length < 2 then
    some (none, scratch)
  else do
    let (delays, scratch) ← collectSamples? network.samplePair? samples scratch
    return (DelaySummary.ofDelays delays, scratch)

def estimateOverlayLatency? (network : Network P) (samples : Nat) (scratch : Rng) :
    Option (Option DelaySummary × Rng) := do
  let linked ← network.overlay.filterByDegree? (fun degree => 0 < degree)
    (idsBelow network.nodeCount)
  if linked.isEmpty then
    return (none, scratch)
  else
    let (delays, scratch) ← collectSamples? (network.sampleLink? linked) samples scratch
    return (DelaySummary.ofDelays delays, scratch)

variable {network : Network P}

theorem commitFate?_eq {sender : Nat} (known : sender < network.nodeCount) (message : P.Message)
    (decision : Nat × Fate) :
    commitFate? message sender network decision =
      some (commitFate message sender network decision) := by
  obtain ⟨receiver, fate⟩ := decision
  cases fate with
  | deliver arrival =>
      dsimp only [commitFate?]
      rw [modifyAt?_eq (show sender < network.nodes.length from known)]
      rfl
  | down | partitioned | discarded => rfl

theorem foldlM_commitFate? {sender : Nat} (known : sender < network.nodeCount)
    (message : P.Message) (fates : List (Nat × Fate)) :
    fates.foldlM (commitFate? message sender) network =
      some (fates.foldl (commitFate message sender) network) := by
  induction fates generalizing network with
  | nil => rfl
  | cons decision rest induction =>
      rw [List.foldlM_cons, commitFate?_eq known]
      exact induction (by rwa [nodeCount_commitFate])

theorem sendToMany?_eq (network : Network P) (message : P.Message) (origin sender : Nat)
    (receivers : List Nat) :
    network.sendToMany? message origin sender receivers =
      some (network.sendToMany message origin sender receivers) := by
  unfold sendToMany? sendToMany
  cases checked : network.checkSend origin sender receivers with
  | error error => rfl
  | ok _ =>
      obtain ⟨-, known⟩ := checkSend_ok checked
      cases network.fates origin sender receivers network.rng with
      | error error => rfl
      | ok decided =>
          obtain ⟨fates, rng⟩ := decided
          have present : sender < { network with rng := rng }.nodeCount :=
            known sender List.mem_cons_self
          dsimp only
          rw [foldlM_commitFate? present]
          rfl

theorem sendStaggered?_eq (message : P.Message) (sender delay departure : Nat)
    (receivers : List Nat) (network : Network P) :
    sendStaggered? message sender delay departure receivers network =
      some (sendStaggered message sender delay departure receivers network) := by
  induction receivers generalizing departure network with
  | nil => rfl
  | cons receiver rest induction =>
      rw [sendStaggered?, sendToMany?_eq, sendStaggered, send]
      dsimp only [Option.bind_eq_bind, Option.bind_some]
      rcases network.sendToMany message departure sender [receiver] with ⟨_ | _, after⟩
      · rfl
      · exact induction _ after

theorem sendCopies?_eq (network : Network P) (message : P.Message) (header : FloodHeader)
    (node : Nat) (plan : FloodPlan) :
    network.sendCopies? message header node plan =
      some (network.sendCopies message header node plan) := by
  unfold sendCopies? sendCopies
  split
  · exact network.sendToMany?_eq ..
  · exact sendStaggered?_eq ..

theorem forwardFlood?_eq (network : Network P) (message : P.Message) (header : FloodHeader)
    (node : Nat) (sender : Option Nat) :
    network.forwardFlood? message header node sender =
      some (network.forwardFlood message header node sender) := by
  unfold forwardFlood?
  cases forwarded : network.forwardFlood message header node sender with
  | mk outcome after =>
      cases forwards_of_forwardFlood forwarded with
      | refused planned | ignored planned => rw [planned]
      | passed planned sent | broken planned sent =>
          rw [planned]
          dsimp only
          rw [Overlay.markSeen?_eq (listed_of_planFlood planned)]
          dsimp only [Option.bind_eq_bind, Option.bind_some]
          rw [sendCopies?_eq, ← markSeen, sent]
          rfl

theorem flood?_eq (network : Network P) (message : P.Message) (header : FloodHeader)
    (origin : Nat) :
    network.flood? message header origin = some (network.flood message header origin) := by
  rw [flood?, forwardFlood?_eq, flood]
  split <;> rename_i forwarded <;> rw [forwarded] <;> rfl

theorem Wired.setPeers?_eq (wired : network.Wired) (config : OverlayConfig) :
    network.setPeers? config = some (network.setPeers config) := by
  unfold setPeers? setPeers
  cases config.validate network.nodeCount with
  | error error => rfl
  | ok _ =>
      dsimp only
      rw [Overlay.build?_eq wired.count]
      rfl

theorem Wired.createLink?_eq (wired : network.Wired) (first second : Nat) :
    network.createLink? first second = some (network.createLink first second) := by
  unfold createLink? createLink
  cases valid : network.checkPair first second with
  | error error => rfl
  | ok _ =>
      obtain ⟨firstKnown, secondKnown, -⟩ := known_of_checkPair valid
      rw [← wired.count] at firstKnown secondKnown
      dsimp only
      rw [Overlay.link?_eq firstKnown secondKnown]
      rfl

theorem Wired.removeLink?_eq (wired : network.Wired) (first second : Nat) :
    network.removeLink? first second = some (network.removeLink first second) := by
  unfold removeLink? removeLink
  cases valid : network.checkPair first second with
  | error error => rfl
  | ok _ =>
      obtain ⟨firstKnown, secondKnown, -⟩ := known_of_checkPair valid
      rw [← wired.count] at firstKnown secondKnown
      dsimp only
      rw [Overlay.unlink?_eq firstKnown secondKnown]
      rfl

/-! Blocks -/

theorem createBlock?_eq (childLists : network.tree.childLists.length = network.tree.length)
    (proposal : BlockProposal P.Payload) :
    network.createBlock? proposal = some (network.createBlock proposal) := by
  unfold createBlock? createBlock
  rw [BlockTree.insert?_eq childLists]
  cases network.node? proposal.producer with
  | none => rfl
  | some producer =>
      dsimp only [Option.bind_eq_bind, Option.bind_some]
      cases network.tree.insert proposal with
      | error error => rfl
      | ok created => rfl

/-- A head is read after the block was received and written before anything else. -/
theorem receiveBlock?_eq {node : Nat} (viewed : node < network.tree.received.length)
    (headed : node < network.tree.heads.length) (block : Nat) :
    network.receiveBlock? node block = some (network.receiveBlock node block) := by
  have still : node < (network.tree.receive node block).heads.length := headed
  have found := List.getElem?_eq_getElem still
  rw [receiveBlock?, BlockTree.receive?_eq viewed]
  dsimp only [Option.bind_eq_bind, Option.bind_some]
  rw [found]
  dsimp only [Option.bind_some]
  rw [BlockTree.setHead?_eq still, receiveBlock, found]
  rfl

theorem acceptBlock?_eq (coherent : network.tree.Coherent) {node : Nat}
    (viewed : node < network.tree.received.length) (headed : node < network.tree.heads.length)
    (block : Block P.Payload) :
    network.acceptBlock? node block = some (network.acceptBlock node block) := by
  rw [acceptBlock?, coherent.conflicting?_eq, acceptBlock]
  dsimp only [Option.bind_eq_bind, Option.bind_some]
  cases network.tree.conflicting block with
  | some rival =>
      dsimp only
      split <;> rfl
  | none =>
      dsimp only
      rw [receiveBlock?_eq viewed headed]
      rfl

theorem offerBlock?_eq (coherent : network.tree.Coherent)
    (received : network.tree.received.length = network.nodeCount)
    (heads : network.tree.heads.length = network.nodeCount) (node id : Nat) :
    network.offerBlock? node id = some (network.offerBlock node id) := by
  unfold offerBlock? offerBlock
  cases found : network.node? node with
  | none => rfl
  | some present =>
      have known := lt_nodeCount_of_node? found
      have accepts := acceptBlock?_eq coherent (by rwa [received]) (by rwa [heads])
      dsimp only
      cases network.tree.block id with
      | error error => rfl
      | ok block =>
          dsimp only
          split
          · rfl
          · split
            · cases network.config.earlyBlockPolicy with
              | accept => exact accepts block
              | reject | defer => rfl
            · exact accepts block

/-! Estimates -/

theorem collectSamples?_eq {sample : Rng → Option Nat × Rng}
    {sample? : Rng → Option (Option Nat × Rng)} (same : ∀ rng, sample? rng = some (sample rng))
    (count : Nat) (rng : Rng) :
    collectSamples? sample? count rng = some (collectSamples sample count rng) := by
  induction count generalizing rng with
  | zero => rfl
  | succ count induction =>
      rw [collectSamples?, same]
      dsimp only [Option.bind_eq_bind, Option.bind_some]
      rw [induction]
      rfl

theorem samplePair?_eq (many : 2 ≤ network.nodeInfos.length) (rng : Rng) :
    network.samplePair? rng = some (network.latency.samplePair network.nodeInfos rng) := by
  rcases drawn : rng.below .double network.nodeInfos.length with ⟨first, middle⟩
  rcases alsoDrawn : middle.below .double (network.nodeInfos.length - 1) with ⟨second, after⟩
  have firstKnown : first < network.nodeInfos.length := Rng.lt_of_below (by omega) drawn
  have secondDrawn : second < network.nodeInfos.length - 1 :=
    Rng.lt_of_below (by omega) alsoDrawn
  have secondKnown :
      (if first ≤ second then second + 1 else second) < network.nodeInfos.length := by
    split <;> omega
  have sender := List.getElem?_eq_getElem firstKnown
  have receiver := List.getElem?_eq_getElem secondKnown
  simp only [samplePair?, Latency.samplePair, drawn, alsoDrawn, sender, receiver,
    Option.bind_eq_bind, Option.bind_some, Option.pure_def]

theorem estimateLatency?_eq (network : Network P) (samples : Nat) (scratch : Rng) :
    network.estimateLatency? samples scratch =
      some (network.estimateLatency samples scratch) := by
  unfold estimateLatency? estimateLatency Latency.estimate
  split
  · rfl
  · rename_i many
    rw [collectSamples?_eq (samplePair?_eq (Nat.not_lt.mp many))]
    rfl

theorem Wired.sampleLink?_eq (wired : network.Wired) {linked : List Nat}
    (known : ∀ node ∈ linked, node < network.nodeCount) (rng : Rng) :
    network.sampleLink? linked rng = some (network.sampleLink linked rng) := by
  unfold sampleLink? sampleLink
  cases chosen : rng.choose linked with
  | mk choice middle =>
      cases choice with
      | none => rfl
      | some first =>
          have firstKnown := known first (Rng.mem_of_choose chosen)
          have sender : network.node? first = some _ := List.getElem?_eq_getElem firstKnown
          dsimp only
          rw [Overlay.peers?_eq (by rwa [wired.count])]
          dsimp only [Option.bind_eq_bind, Option.bind_some]
          cases listed : (network.overlay.peers first)[
              (middle.below .double (network.overlay.peers first).length).1]? with
          | none => simp only [sender, Option.bind_none, Option.pure_def]
          | some second =>
              have secondKnown := wired.known_of_mem_peers (List.mem_of_getElem? listed)
              have receiver : network.node? second = some _ :=
                List.getElem?_eq_getElem secondKnown
              simp only [sender, receiver, Option.bind_some, Option.pure_def]

theorem Wired.estimateOverlayLatency?_eq (wired : network.Wired) (samples : Nat)
    (scratch : Rng) :
    network.estimateOverlayLatency? samples scratch =
      some (network.estimateOverlayLatency samples scratch) := by
  have known : ∀ node ∈ network.linkedNodes, node < network.nodeCount :=
    fun node member => lt_of_mem_idsBelow (mem_linkedNodes.mp member).1
  have listed : ∀ node ∈ idsBelow network.nodeCount, node < network.overlay.nodeCount := by
    intro node inRange
    rw [wired.count]
    exact lt_of_mem_idsBelow inRange
  have linked : network.overlay.filterByDegree? (fun degree => 0 < degree)
      (idsBelow network.nodeCount) = some network.linkedNodes :=
    Overlay.filterByDegree?_eq listed _
  rw [estimateOverlayLatency?, linked, estimateOverlayLatency]
  dsimp only [Option.bind_eq_bind, Option.bind_some]
  split
  · rfl
  · rw [collectSamples?_eq (wired.sampleLink?_eq known)]
    rfl

end Network

/-- An operation that does not run the network, with a check at every place that it reaches. -/
def Op.perform? {P : Protocol} (network : Network P) :
    (op : Op P) → Option (op.Answer × Network P)
  | sendToMany message origin sender receivers =>
      network.sendToMany? message origin sender receivers
  | sendAll message origin sender =>
      network.sendToMany? message origin sender
        (network.liveNodeIds.filter fun id => id ≠ sender)
  | setPeers config => network.setPeers? config
  | createLink first second => network.createLink? first second
  | removeLink first second => network.removeLink? first second
  | flood message header origin => network.flood? message header origin
  | receiveFlood message header sender receiver =>
      network.forwardFlood? message header receiver (some sender)
  | createBlock proposal => network.createBlock? proposal
  | offerBlock node block => network.offerBlock? node block
  | op => op.perform idle network

theorem Op.perform?_eq {P : Protocol} {network : Network P} (wired : network.Wired)
    (coherent : network.tree.Coherent)
    (childLists : network.tree.childLists.length = network.tree.length)
    (received : network.tree.received.length = network.nodeCount)
    (heads : network.tree.heads.length = network.nodeCount) (op : Op P) :
    op.perform? network = op.perform idle network := by
  cases op with
  | sendToMany message origin sender receivers | sendAll message origin sender =>
      exact network.sendToMany?_eq ..
  | setPeers config => exact wired.setPeers?_eq config
  | createLink first second => exact wired.createLink?_eq first second
  | removeLink first second => exact wired.removeLink?_eq first second
  | flood message header origin => exact network.flood?_eq message header origin
  | receiveFlood message header sender receiver => exact network.forwardFlood?_eq ..
  | createBlock proposal => exact Network.createBlock?_eq childLists proposal
  | offerBlock node block => exact Network.offerBlock?_eq coherent received heads node block
  | _ => rfl

theorem Op.isSome_perform {P : Protocol} {op : Op P} (quiet : op.isRun = false)
    (network : Network P) : (op.perform idle network).isSome = true := by
  cases op with
  | runUntil _ | runFor _ | runSeconds _ => cases quiet
  | _ => rfl

end Simnet
