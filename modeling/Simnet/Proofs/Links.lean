import Mathlib.Algebra.BigOperators.Fin
import Mathlib.Combinatorics.SimpleGraph.DegreeSum
import Simnet.Proofs.FloodOnce

namespace Simnet

/-! Links as an undirected graph. A link is kept in two ordered lists, and only one of them
is asked for the answer of an operation; in every network that a life leads to both say the
same, no node is its own peer, and what is linked and unlinked again leaves no trace. -/

namespace Overlay

variable {overlay : Overlay} {first second : Nat}

theorem areLinked_eq (overlay : Overlay) (node other : Nat) :
    overlay.areLinked node other = decide (other ∈ overlay.peers node) := by
  simp [areLinked]

/-- Links are between different nodes, and both ends list them once. -/
structure Simple (overlay : Overlay) : Prop extends overlay.Sound where
  loopless : ∀ node, node ∉ overlay.peers node

theorem simple_empty : empty.Simple where
  toSound := sound_empty
  loopless := by simp [empty, peers, peers?]

theorem Simple.of_peers {other : Overlay} (simple : overlay.Simple)
    (same : ∀ node, other.peers node = overlay.peers node) : other.Simple where
  toSound := simple.toSound.of_peers same
  loopless := by
    intro node
    rw [same]
    exact simple.loopless node

theorem Simple.link (simple : overlay.Simple) (firstKnown : first < overlay.nodeCount)
    (secondKnown : second < overlay.nodeCount) (different : first ≠ second) :
    (overlay.link first second).Simple where
  toSound := simple.toSound.link firstKnown secondKnown
  loopless := by
    intro node linked
    rw [mem_peers_link firstKnown secondKnown] at linked
    rcases linked with old | ⟨rfl, same⟩ | ⟨rfl, same⟩
    · exact simple.loopless node old
    · exact different same
    · exact different same.symm

theorem Simple.unlink (simple : overlay.Simple) (firstKnown : first < overlay.nodeCount)
    (secondKnown : second < overlay.nodeCount) (different : first ≠ second) :
    (overlay.unlink first second).Simple where
  toSound := simple.toSound.unlink firstKnown secondKnown different
  loopless := by
    intro node linked
    rw [mem_peers_unlink simple.toSound firstKnown secondKnown different] at linked
    exact simple.loopless node linked.1

theorem Simple.build (simple : overlay.Simple) (config : OverlayConfig) (rng : Rng) :
    (overlay.build config rng).1.Simple := by
  refine build_keeps ?_ config rng simple
  intro overlay node other simple known candidate
  obtain ⟨otherKnown, different, -⟩ := of_mem_candidates candidate
  exact simple.link known otherKnown different.symm

/-! The sum of all degrees -/

theorem Simple.lt_of_mem (simple : overlay.Simple) {node peer : Nat}
    (linked : peer ∈ overlay.peers node) : peer < overlay.nodeCount := by
  have back := simple.symmetric linked
  by_contra beyond
  have unlisted : overlay.peers? peer = none := List.getElem?_eq_none (Nat.not_lt.mp beyond)
  simp [peers, unlisted] at back

def Simple.graph (simple : overlay.Simple) : SimpleGraph (Fin overlay.nodeCount) where
  Adj node other := other.val ∈ overlay.peers node.val
  symm := ⟨fun _ _ => simple.symmetric⟩
  loopless := ⟨fun node => simple.loopless node⟩

instance (simple : overlay.Simple) : DecidableRel simple.graph.Adj :=
  fun node other => inferInstanceAs (Decidable (other.val ∈ overlay.peers node.val))

theorem Simple.degree_eq (simple : overlay.Simple) (node : Fin overlay.nodeCount) :
    simple.graph.degree node = overlay.degree node := by
  have neighbours : (simple.graph.neighborFinset node).map Fin.valEmbedding =
      (overlay.peers node).toFinset := by
    ext peer
    rw [Finset.mem_map, List.mem_toFinset]
    constructor
    · rintro ⟨other, linked, rfl⟩
      exact (simple.graph.mem_neighborFinset node other).mp linked
    · intro linked
      exact ⟨⟨peer, simple.lt_of_mem linked⟩, (simple.graph.mem_neighborFinset ..).mpr linked, rfl⟩
  rw [← SimpleGraph.card_neighborFinset_eq_degree, ← Finset.card_map, neighbours,
    List.toFinset_card_of_nodup (simple.distinct node)]
  rfl

theorem degreeSum_eq (overlay : Overlay) :
    overlay.degreeSum = ((List.range overlay.nodeCount).map overlay.degree).sum := by
  have degrees : overlay.peerLists.map List.length =
      (List.range overlay.nodeCount).map overlay.degree := by
    apply List.ext_getElem
    · simp [nodeCount]
    · intro node known _
      rw [List.length_map] at known
      simp [degree, peers, peers?, List.getElem?_eq_getElem known]
  rw [degreeSum, degrees, List.sum]

theorem Simple.handshake (simple : overlay.Simple) :
    2 * overlay.linkCount = ((List.range overlay.nodeCount).map overlay.degree).sum := by
  have degrees : ((List.range overlay.nodeCount).map overlay.degree).sum =
      ∑ node, simple.graph.degree node := by
    simp only [simple.degree_eq]
    exact Finset.sum_range overlay.degree
  have edges := simple.graph.sum_degrees_eq_twice_card_edges
  rw [linkCount, degreeSum_eq, degrees, edges]
  omega

/-! The other links -/

theorem filter_addPeer {keep : Nat → Bool} {peer : Nat} (dropped : keep peer = false)
    (peers : List Nat) : (addPeer peers peer).filter keep = peers.filter keep := by
  rw [addPeer]
  split
  · rfl
  · rw [List.filter_append, List.filter_singleton, dropped]
    exact List.append_nil _

theorem filter_erase {keep : Nat → Bool} {peer : Nat} (dropped : keep peer = false)
    (peers : List Nat) : (peers.erase peer).filter keep = peers.filter keep := by
  induction peers with
  | nil => rfl
  | cons first peers induction =>
      rw [List.erase_cons]
      split
      · rename_i same
        rw [beq_iff_eq] at same
        rw [same, List.filter_cons, dropped]
        rfl
      · rw [List.filter_cons, List.filter_cons, induction]

theorem filter_peers_modifyPeers {keep : Nat → Bool} {node other : Nat}
    {change : List Nat → List Nat}
    (kept : node = other → ∀ peers, (change peers).filter keep = peers.filter keep) :
    ((overlay.modifyPeers node change).peers other).filter keep =
      (overlay.peers other).filter keep := by
  by_cases same : node = other
  · subst same
    by_cases known : node < overlay.nodeCount
    · rw [peers_modifyPeers_self known, kept rfl]
    · have beyond : overlay.peerLists.length ≤ node := Nat.not_lt.mp known
      simp [peers, peers?, modifyPeers, List.getElem?_eq_none beyond]
  · rw [peers_modifyPeers_of_ne overlay same]

/-- The peers of a node in their order, but for a link between the two nodes. -/
def peersBesides (overlay : Overlay) (first second node : Nat) : List Nat :=
  (overlay.peers node).filter fun peer =>
    ¬ (node = first ∧ peer = second) ∧ ¬ (node = second ∧ peer = first)

theorem peersBesides_link (overlay : Overlay) (first second node : Nat) :
    (overlay.link first second).peersBesides first second node =
      overlay.peersBesides first second node := by
  rw [peersBesides, peersBesides, link, filter_peers_modifyPeers, filter_peers_modifyPeers]
  · rintro rfl
    exact filter_addPeer (by simp)
  · rintro rfl
    exact filter_addPeer (by simp)

theorem peersBesides_unlink (overlay : Overlay) (first second node : Nat) :
    (overlay.unlink first second).peersBesides first second node =
      overlay.peersBesides first second node := by
  rw [peersBesides, peersBesides, unlink, filter_peers_modifyPeers, filter_peers_modifyPeers]
  · rintro rfl
    exact filter_erase (by simp)
  · rintro rfl
    exact filter_erase (by simp)

/-! Linking and unlinking again -/

theorem ext_peers {other : Overlay} (seen : other.seen = overlay.seen)
    (count : other.nodeCount = overlay.nodeCount)
    (same : ∀ node, other.peers node = overlay.peers node) : other = overlay := by
  obtain ⟨lists, marks⟩ := overlay
  obtain ⟨otherLists, otherMarks⟩ := other
  cases seen
  congr 1
  apply List.ext_getElem count
  intro node otherKnown known
  have entry := same node
  simpa [peers, peers?, List.getElem?_eq_getElem known, List.getElem?_eq_getElem otherKnown]
    using entry

theorem peers_modifyPair (firstKnown : first < overlay.nodeCount)
    (secondKnown : second < overlay.nodeCount) (different : first ≠ second)
    (change : List Nat → Nat → List Nat) (node : Nat) :
    ((overlay.modifyPeers first (change · second)).modifyPeers second (change · first)).peers
        node =
      if node = first then change (overlay.peers first) second
      else if node = second then change (overlay.peers second) first
      else overlay.peers node := by
  have stillKnown : second < (overlay.modifyPeers first (change · second)).nodeCount := by
    rwa [nodeCount_modifyPeers]
  split_ifs with isFirst isSecond
  · rw [isFirst, peers_modifyPeers_of_ne _ different.symm, peers_modifyPeers_self firstKnown]
  · rw [isSecond, peers_modifyPeers_self stillKnown, peers_modifyPeers_of_ne _ different]
  · rw [peers_modifyPeers_of_ne _ (Ne.symm isSecond), peers_modifyPeers_of_ne _ (Ne.symm isFirst)]

theorem peers_link (firstKnown : first < overlay.nodeCount)
    (secondKnown : second < overlay.nodeCount) (different : first ≠ second) (node : Nat) :
    (overlay.link first second).peers node =
      if node = first then addPeer (overlay.peers first) second
      else if node = second then addPeer (overlay.peers second) first
      else overlay.peers node :=
  peers_modifyPair firstKnown secondKnown different addPeer node

theorem peers_unlink (firstKnown : first < overlay.nodeCount)
    (secondKnown : second < overlay.nodeCount) (different : first ≠ second) (node : Nat) :
    (overlay.unlink first second).peers node =
      if node = first then (overlay.peers first).erase second
      else if node = second then (overlay.peers second).erase first
      else overlay.peers node :=
  peers_modifyPair firstKnown secondKnown different List.erase node

theorem unlink_comm (firstKnown : first < overlay.nodeCount)
    (secondKnown : second < overlay.nodeCount) (different : first ≠ second) :
    overlay.unlink second first = overlay.unlink first second := by
  apply ext_peers
  · rfl
  · rw [nodeCount_unlink, nodeCount_unlink]
  · intro node
    rw [peers_unlink firstKnown secondKnown different,
      peers_unlink secondKnown firstKnown different.symm]
    split_ifs with isSecond isFirst
    · exact absurd (isFirst.symm.trans isSecond) different
    · rfl
    · rfl
    · rfl

theorem erase_addPeer {peers : List Nat} {peer : Nat} (absent : peer ∉ peers) :
    (addPeer peers peer).erase peer = peers := by
  rw [addPeer, if_neg (by simpa using absent), List.erase_append_right _ absent,
    List.erase_cons_head, List.append_nil]

theorem Simple.unlink_link (simple : overlay.Simple) (firstKnown : first < overlay.nodeCount)
    (secondKnown : second < overlay.nodeCount) (different : first ≠ second)
    (unlinked : second ∉ overlay.peers first) :
    (overlay.link first second).unlink first second = overlay := by
  have unlinkedBack : first ∉ overlay.peers second :=
    fun linked => unlinked (simple.symmetric linked)
  have linkedFirst : (overlay.link first second).peers first =
      addPeer (overlay.peers first) second := by
    rw [peers_link firstKnown secondKnown different, if_pos rfl]
  have linkedSecond : (overlay.link first second).peers second =
      addPeer (overlay.peers second) first := by
    rw [peers_link firstKnown secondKnown different, if_neg different.symm, if_pos rfl]
  apply ext_peers
  · rfl
  · rw [nodeCount_unlink, nodeCount_link]
  · intro node
    have firstStays : first < (overlay.link first second).nodeCount := by rwa [nodeCount_link]
    have secondStays : second < (overlay.link first second).nodeCount := by rwa [nodeCount_link]
    rw [peers_unlink firstStays secondStays different, linkedFirst, linkedSecond,
      erase_addPeer unlinked, erase_addPeer unlinkedBack,
      peers_link firstKnown secondKnown different]
    split_ifs with isFirst isSecond
    · rw [isFirst]
    · rw [isSecond]
    · rfl

end Overlay

section Links

variable {P : Protocol}

namespace Network

variable {network after : Network P} {first second : Nat}

theorem checkPair_eq_ok_iff :
    network.checkPair first second = .ok () ↔
      first < network.nodeCount ∧ second < network.nodeCount ∧ first ≠ second := by
  constructor
  · exact known_of_checkPair
  · rintro ⟨firstKnown, secondKnown, different⟩
    obtain ⟨firstNode, firstFound⟩ := exists_node_of_known firstKnown
    obtain ⟨secondNode, secondFound⟩ := exists_node_of_known secondKnown
    simp [checkPair, firstFound, secondFound, different]

theorem checkPair_comm :
    network.checkPair first second = .ok () ↔ network.checkPair second first = .ok () := by
  rw [checkPair_eq_ok_iff, checkPair_eq_ok_iff]
  constructor
  · exact fun ⟨firstKnown, secondKnown, different⟩ => ⟨secondKnown, firstKnown, different.symm⟩
  · exact fun ⟨secondKnown, firstKnown, different⟩ => ⟨firstKnown, secondKnown, different.symm⟩

/-- What linking and unlinking have in common: two different nodes are edited, and anything
else is refused. -/
def editPair (network : Network P) (first second : Nat) (answer : Bool) (edited : Overlay) :
    Outcome P Bool :=
  match network.checkPair first second with
  | .error error => (.error error, network)
  | .ok () => (.ok answer, { network with overlay := edited })

theorem createLink_eq (network : Network P) (first second : Nat) :
    network.createLink first second =
      network.editPair first second (decide (second ∉ network.overlay.peers first))
        (network.overlay.link first second) := by
  cases checked : network.checkPair first second with
  | error error => simp only [createLink, editPair, checked]
  | ok => simp only [createLink, editPair, checked, Overlay.areLinked_eq, decide_not]

theorem removeLink_eq (network : Network P) (first second : Nat) :
    network.removeLink first second =
      network.editPair first second (decide (second ∈ network.overlay.peers first))
        (network.overlay.unlink first second) := by
  cases checked : network.checkPair first second with
  | error error => simp only [removeLink, editPair, checked]
  | ok => simp only [removeLink, editPair, checked, Overlay.areLinked_eq]

theorem editPair_of_valid (valid : network.checkPair first second = .ok ()) (answer : Bool)
    (edited : Overlay) :
    network.editPair first second answer edited =
      (.ok answer, { network with overlay := edited }) := by
  rw [editPair, valid]

theorem overlay_editPair (network : Network P) (first second : Nat) (answer : Bool)
    (edited : Overlay) :
    (network.editPair first second answer edited).2.overlay = network.overlay ∨
      (network.editPair first second answer edited).2.overlay = edited := by
  rw [editPair]
  split
  · exact .inl rfl
  · exact .inr rfl

theorem editPair_answer_iff {edited : Overlay} {answer given : Bool} :
    (network.editPair first second answer edited).1 = .ok given ↔
      network.checkPair first second = .ok () ∧ given = answer := by
  rw [editPair]
  split
  · rename_i error refused
    simp [refused]
  · rename_i valid
    rw [valid, Except.ok.injEq, eq_comm]
    exact (and_iff_right rfl).symm

theorem editPair_answer_comm {edited editedBack : Overlay} {answer answerBack : Bool}
    (same : answerBack = answer) (given : Bool) :
    (network.editPair first second answer edited).1 = .ok given ↔
      (network.editPair second first answerBack editedBack).1 = .ok given := by
  rw [editPair_answer_iff, editPair_answer_iff, checkPair_comm, same]

theorem createLink_answer_comm (sound : network.overlay.Sound) (answer : Bool) :
    (network.createLink first second).1 = .ok answer ↔
      (network.createLink second first).1 = .ok answer := by
  rw [createLink_eq, createLink_eq]
  apply editPair_answer_comm
  exact decide_eq_decide.mpr (not_congr ⟨sound.symmetric, sound.symmetric⟩)

theorem removeLink_answer_comm (sound : network.overlay.Sound) (answer : Bool) :
    (network.removeLink first second).1 = .ok answer ↔
      (network.removeLink second first).1 = .ok answer := by
  rw [removeLink_eq, removeLink_eq]
  apply editPair_answer_comm
  exact decide_eq_decide.mpr ⟨sound.symmetric, sound.symmetric⟩

theorem peersBesides_createLink (network : Network P) (first second node : Nat) :
    (network.createLink first second).2.overlay.peersBesides first second node =
      network.overlay.peersBesides first second node := by
  rw [createLink_eq]
  rcases overlay_editPair network first second _ _ with same | edited
  · rw [same]
  · rw [edited, Overlay.peersBesides_link]

theorem peersBesides_removeLink (network : Network P) (first second node : Nat) :
    (network.removeLink first second).2.overlay.peersBesides first second node =
      network.overlay.peersBesides first second node := by
  rw [removeLink_eq]
  rcases overlay_editPair network first second _ _ with same | edited
  · rw [same]
  · rw [edited, Overlay.peersBesides_unlink]

theorem removeLink_createLink (simple : network.overlay.Simple)
    (count : network.overlay.nodeCount = network.nodeCount)
    (valid : network.checkPair first second = .ok ())
    (unlinked : second ∉ network.overlay.peers first) :
    (network.createLink first second).2.removeLink first second = (.ok true, network) ∧
      (network.createLink first second).2.removeLink second first = (.ok true, network) := by
  obtain ⟨firstKnown, secondKnown, different⟩ := known_of_checkPair valid
  rw [← count] at firstKnown secondKnown
  have restored := simple.unlink_link firstKnown secondKnown different unlinked
  have restoredBack : (network.overlay.link first second).unlink second first =
      network.overlay := by
    rw [Overlay.unlink_comm (by rwa [Overlay.nodeCount_link]) (by rwa [Overlay.nodeCount_link])
      different, restored]
  have listed {node other : Nat} : other ∈ (network.overlay.link first second).peers node ↔ _ :=
    Overlay.mem_peers_link firstKnown secondKnown
  -- The registry is the same after the link is made, so both ends are still known.
  have still : ({ network with overlay := network.overlay.link first second } :
      Network P).checkPair first second = .ok () := valid
  rw [createLink_eq, editPair_of_valid valid, removeLink_eq, removeLink_eq]
  dsimp only
  constructor
  · rw [editPair_of_valid still, restored, decide_eq_true (listed.mpr (by simp))]
  · rw [editPair_of_valid (checkPair_comm.mp still), restoredBack,
      decide_eq_true (listed.mpr (by simp))]

/-- The overlay has a list for each node, its links go both ways, and no node is linked to
itself. -/
structure Meshed (network : Network P) : Prop extends network.Wired where
  loopless : ∀ node, node ∉ network.overlay.peers node

theorem Meshed.simple (meshed : network.Meshed) : network.overlay.Simple :=
  ⟨meshed.sound, meshed.loopless⟩

theorem meshed_new (config : NetworkConfig) (latency : Latency) (genesis : P.Payload) :
    (new config latency genesis : Network P).Meshed where
  toWired := wired_new config latency genesis
  loopless := Overlay.simple_empty.loopless

theorem link_answers (meshed : network.Meshed) (firstKnown : first < network.nodeCount)
    (secondKnown : second < network.nodeCount) (different : first ≠ second) :
    (network.createLink first second).1 =
        .ok (decide (second ∉ network.overlay.peers first)) ∧
      (network.removeLink first second).1 =
        .ok (decide (second ∈ network.overlay.peers first)) ∧
      second ∈ (network.createLink first second).2.overlay.peers first ∧
      second ∉ (network.removeLink first second).2.overlay.peers first := by
  have valid := checkPair_eq_ok_iff.mpr ⟨firstKnown, secondKnown, different⟩
  rw [createLink_eq, removeLink_eq, editPair_of_valid valid, editPair_of_valid valid]
  rw [← meshed.count] at firstKnown secondKnown
  refine ⟨rfl, rfl, ?_, ?_⟩
  · rw [Overlay.mem_peers_link firstKnown secondKnown]
    exact .inr (.inl ⟨rfl, rfl⟩)
  · rw [Overlay.mem_peers_unlink meshed.sound firstKnown secondKnown different]
    exact fun linked => linked.2.1 ⟨rfl, rfl⟩

theorem Change.meshed {kept : Prop} (change : Change kept network after)
    (meshed : network.Meshed) : after.Meshed := by
  refine ⟨change.wired meshed.toWired, ?_⟩
  have simple := meshed.simple
  cases change with
  | draw | enlist | divide | heal | insert | receive | edit | mark => exact simple.loopless
  | settle =>
      rw [overlay_commitFate]
      exact simple.loopless
  | join => exact (simple.of_peers (Overlay.peers_addNode network.overlay)).loopless
  | link valid =>
      obtain ⟨firstKnown, secondKnown, different⟩ := known_of_checkPair valid
      rw [← meshed.count] at firstKnown secondKnown
      exact (simple.link firstKnown secondKnown different).loopless
  | unlink valid =>
      obtain ⟨firstKnown, secondKnown, different⟩ := known_of_checkPair valid
      rw [← meshed.count] at firstKnown secondKnown
      exact (simple.unlink firstKnown secondKnown different).loopless
  | build => exact (simple.build _ _).loopless

theorem Changes.meshed {kept : Prop} (changes : Changes kept network after)
    (meshed : network.Meshed) : after.Meshed := by
  induction changes with
  | refl => exact meshed
  | tail _ change induction => exact change.meshed induction

theorem peerLists_forwardFlood {message : P.Message} {header : FloodHeader} {node : Nat}
    {source : Option Nat} {outcome : Except Error Bool}
    (forwarded : network.forwardFlood message header node source = (outcome, after)) :
    after.overlay.peerLists = network.overlay.peerLists := by
  cases forwards_of_forwardFlood forwarded with
  | refused _ | ignored _ => rfl
  | passed _ sent | broken _ sent =>
      rw [(sameLayers_sendCopies sent).overlay]
      rfl

theorem peerLists_flood (network : Network P) (message : P.Message) (header : FloodHeader)
    (origin : Nat) :
    (network.flood message header origin).2.overlay.peerLists = network.overlay.peerLists := by
  rw [flood]
  split <;> rename_i forwarded <;> exact peerLists_forwardFlood forwarded

theorem peerLists_receiveFlood (network : Network P) (message : P.Message)
    (header : FloodHeader) (sender receiver : Nat) :
    (network.receiveFlood message header sender receiver).2.overlay.peerLists =
      network.overlay.peerLists :=
  peerLists_forwardFlood rfl

theorem peerLists_setDown (network : Network P) (id : Nat) (down : Bool) :
    (network.setDown id down).2.overlay.peerLists = network.overlay.peerLists :=
  congrArg Overlay.peerLists (sameLayers_updateNode rfl).overlay

end Network

namespace Op

def rewires : Op P → Bool
  | addNode _ _ | setPeers _ | createLink _ _ | removeLink _ _ => true
  | _ => false

variable {network after : Network P} {op : Op P} {answer : op.Answer}

theorem peerLists_perform (quiet : op.isRun = false) (other : op.rewires = false)
    (performed : op.perform idle network = some (answer, after)) :
    after.overlay.peerLists = network.overlay.peerLists := by
  cases op with
  | addNode _ _ | setPeers _ | createLink _ _ | removeLink _ _ => cases other
  | flood message header origin =>
      have flooded := Network.peerLists_flood network message header origin
      rwa [Option.some.inj performed] at flooded
  | receiveFlood _ _ _ _ => exact Network.peerLists_forwardFlood (Option.some.inj performed)
  | createBlock _ => rw [Network.overlay_createBlock (Option.some.inj performed)]
  | offerBlock _ _ => rw [Network.overlay_offerBlock (Option.some.inj performed)]
  | _ => rw [(sameLayers_perform quiet rfl performed).overlay]

end Op

variable {behaviour : Behaviour P} {good : Op P → Prop} {moment : Moment P}

theorem Moment.Lawful.meshed (lawful : moment.Lawful behaviour good)
    (meshed : moment.before.Meshed) : moment.after.Meshed := by
  cases lawful with
  | operated quiet _ performed =>
      have changes : Network.Changes False _ _ :=
        Network.changes_perform quiet False.elim performed
      exact changes.meshed meshed
  | began started =>
      obtain ⟨-, -, rfl⟩ := Network.start_eq_ok started
      exact ⟨meshed.toWired.of_same rfl rfl, meshed.loopless⟩
  | @took before queue key event deadline popped =>
      refine ⟨meshed.toWired.of_same (Network.overlay_countEvent ..)
        (Network.nodeCount_countEvent ..), ?_⟩
      rw [Network.overlay_countEvent]
      exact meshed.loopless
  | rearmed | halted | finished => exact ⟨meshed.toWired.of_same rfl rfl, meshed.loopless⟩

theorem Moment.Lawful.peerLists_eq (lawful : moment.Lawful behaviour good)
    (other : ∀ op, moment.happening = .operated op → op.rewires = false) :
    moment.after.overlay.peerLists = moment.before.overlay.peerLists := by
  cases lawful with
  | operated quiet _ performed => exact Op.peerLists_perform quiet (other _ rfl) performed
  | began started =>
      obtain ⟨-, -, rfl⟩ := Network.start_eq_ok started
      rfl
  | took popped => exact congrArg Overlay.peerLists (Network.overlay_countEvent ..)
  | rearmed | halted | finished => rfl

/-- In every network that a life comes to, the links form an undirected graph without loops, and
a new link that is removed again leaves no trace. -/
theorem Program.links_undirected {α : Type} (behaviour : Behaviour P) (config : NetworkConfig)
    (latency : Latency) (genesis : P.Payload) (life : Program P α) (fuel : Nat)
    {past rest : List (Moment P)}
    (lived : (life.record (Network.recordRun behaviour fuel)
      (.new config latency genesis)).history = past ++ rest)
    (network : Network P) (reached : network = stateAfter (.new config latency genesis) past) :
    (∀ node other, other ∈ network.overlay.peers node ↔ node ∈ network.overlay.peers other) ∧
    (∀ node, node ∉ network.overlay.peers node ∧ (network.overlay.peers node).Nodup) ∧
    2 * network.overlay.linkCount =
      ((List.range network.nodeCount).map network.overlay.degree).sum ∧
    (∀ first second, first < network.nodeCount → second < network.nodeCount →
      first ≠ second →
      (network.createLink first second).1 =
        .ok (decide (second ∉ network.overlay.peers first)) ∧
      (network.removeLink first second).1 =
        .ok (decide (second ∈ network.overlay.peers first)) ∧
      second ∈ (network.createLink first second).2.overlay.peers first ∧
      second ∉ (network.removeLink first second).2.overlay.peers first ∧
      (second ∉ network.overlay.peers first →
        (network.createLink first second).2.removeLink first second = (.ok true, network) ∧
        (network.createLink first second).2.removeLink second first = (.ok true, network))) ∧
    (∀ first second answer,
      ((network.createLink first second).1 = .ok answer ↔
        (network.createLink second first).1 = .ok answer) ∧
      ((network.removeLink first second).1 = .ok answer ↔
        (network.removeLink second first).1 = .ok answer)) ∧
    (∀ first second node,
      (network.createLink first second).2.overlay.peersBesides first second node =
        network.overlay.peersBesides first second node ∧
      (network.removeLink first second).2.overlay.peersBesides first second node =
        network.overlay.peersBesides first second node) ∧
    (∀ id down,
      (network.disconnect id).2.overlay.peerLists = network.overlay.peerLists ∧
      (network.setDown id down).2.overlay.peerLists = network.overlay.peerLists) ∧
    (∀ message header sender receiver,
      (network.flood message header sender).2.overlay.peerLists =
        network.overlay.peerLists ∧
      (network.receiveFlood message header sender receiver).2.overlay.peerLists =
        network.overlay.peerLists) ∧
    ∀ moment ∈ past, (∀ op, moment.happening = .operated op → op.rewires = false) →
      moment.after.overlay.peerLists = moment.before.overlay.peerLists := by
  subst reached
  have passes := past_passes lived
  have meshed := passes.preserves (motive := fun _ network => network.Meshed)
    (Network.meshed_new config latency genesis) fun _ _ lawful => lawful.meshed
  generalize stateAfter (.new config latency genesis) past = network at passes meshed ⊢
  refine ⟨fun _ _ => ⟨meshed.sound.symmetric, meshed.sound.symmetric⟩,
    fun node => ⟨meshed.loopless node, meshed.sound.distinct node⟩, ?_, ?_, ?_, ?_, ?_, ?_, ?_⟩
  · rw [← meshed.count]
    exact meshed.simple.handshake
  · intro first second firstKnown secondKnown different
    obtain ⟨created, removed, linked, unlinked⟩ :=
      Network.link_answers meshed firstKnown secondKnown different
    refine ⟨created, removed, linked, unlinked, ?_⟩
    exact Network.removeLink_createLink meshed.simple meshed.count
      (Network.checkPair_eq_ok_iff.mpr ⟨firstKnown, secondKnown, different⟩)
  · intro first second answer
    exact ⟨Network.createLink_answer_comm meshed.sound answer,
      Network.removeLink_answer_comm meshed.sound answer⟩
  · intro first second node
    exact ⟨network.peersBesides_createLink first second node,
      network.peersBesides_removeLink first second node⟩
  · intro id down
    exact ⟨network.peerLists_setDown id true, network.peerLists_setDown id down⟩
  · intro message header sender receiver
    exact ⟨network.peerLists_flood message header sender,
      network.peerLists_receiveFlood message header sender receiver⟩
  · exact fun moment member => (passes.lawful moment member).peerLists_eq

def relay.meshing : Program relay (Except Error Unit) := do
  let _ ← Program.perform (.addNode (.new ⟨0, 0, none⟩ false) ())
  let _ ← Program.perform (.addNode (.new ⟨3, 4, none⟩ false) ())
  let _ ← Program.perform (.addNode (.new ⟨5, 5, none⟩ false) ())
  let _ ← Program.perform (.addNode (.new ⟨8, 1, none⟩ false) ())
  let _ ← Program.perform (.createLink 0 1)
  let _ ← Program.perform (.createLink 2 1)
  let _ ← Program.perform (.createLink 1 2)
  let _ ← Program.perform (.setPeers ⟨1, true⟩)
  let _ ← Program.perform (.disconnect 1)
  let _ ← Program.perform (P := relay) (.flood 0 ⟨7, 0, 0⟩ 0)
  Program.perform (.runUntil 9)

def relay.meshed : List (Moment relay) :=
  (relay.meshing.record (Network.recordRun relay.behaviour 5) relay.initial).history

theorem relay_links_undirected :
    (stateAfter relay.initial relay.meshed).overlay.peerLists = [[1], [0, 2], [1, 3], [2]] ∧
    2 * (stateAfter relay.initial relay.meshed).overlay.linkCount = 6 ∧
    ((stateAfter relay.initial relay.meshed).createLink 1 0).1 = .ok false ∧
    ((stateAfter relay.initial relay.meshed).removeLink 2 3).1 = .ok true ∧
    ((stateAfter relay.initial relay.meshed).createLink 0 2).2.removeLink 2 0 =
      (.ok true, stateAfter relay.initial relay.meshed) ∧
    ∀ moment ∈ relay.meshed, (∀ op, moment.happening = .operated op → op.rewires = false) →
      moment.after.overlay.peerLists = moment.before.overlay.peerLists := by
  obtain ⟨-, -, handshake, pairs, -, -, -, -, still⟩ :=
    Program.links_undirected relay.behaviour {} (LatencyModel.fixed 2).latency () relay.meshing 5
      (List.append_nil _).symm (stateAfter relay.initial relay.meshed) rfl
  have degrees : ((List.range (stateAfter relay.initial relay.meshed).nodeCount).map
      (stateAfter relay.initial relay.meshed).overlay.degree).sum = 6 := by
    decide +kernel
  obtain ⟨linked, -⟩ := pairs 1 0 (by decide +kernel) (by decide +kernel) (by decide)
  obtain ⟨-, unlinked, -⟩ := pairs 2 3 (by decide +kernel) (by decide +kernel) (by decide)
  obtain ⟨-, -, -, -, restored⟩ := pairs 0 2 (by decide +kernel) (by decide +kernel) (by decide)
  refine ⟨by decide +kernel, handshake.trans degrees, linked.trans ?_, unlinked.trans ?_,
    (restored (by decide +kernel)).2, still⟩
  · exact congrArg Except.ok (by decide +kernel)
  · exact congrArg Except.ok (by decide +kernel)

end Links

end Simnet
