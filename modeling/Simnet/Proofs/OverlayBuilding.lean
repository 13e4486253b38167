import Simnet.Proofs.Links

namespace Simnet

/-! Building an overlay. The number of links to add is known beforehand only because every
round of the two loops that build it adds one: below its degree a node has someone left to be
linked to, and below the number of links some node has. So both loops end, and where they
end the degrees are as asked for. -/

/-- A loop ends in the state in which its round does nothing more. -/
inductive Ends {σ : Type} (round : σ → Option σ) : σ → σ → Prop
  | done {state : σ} (idle : round state = none) : Ends round state state
  | again {state next last : σ} (once : round state = some next) (rest : Ends round next last) :
      Ends round state last

theorem Ends.unique {σ : Type} {round : σ → Option σ} {state last other : σ}
    (ends : Ends round state last) (again : Ends round state other) : other = last := by
  induction ends with
  | done idle =>
      cases again with
      | done => rfl
      | again once _ =>
          rw [idle] at once
          cases once
  | again once _ induction =>
      cases again with
      | done idle =>
          rw [idle] at once
          cases once
      | again twice rest =>
          rw [once] at twice
          cases twice
          exact induction rest

namespace Rng

theorem exists_choose {α : Type} {items : List α} (some : items ≠ []) (rng : Rng) :
    ∃ item ∈ items, ∃ after, rng.choose items = (.some item, after) := by
  cases items with
  | nil => exact absurd rfl some
  | cons first rest => exact ⟨_, mem_of_choose rfl, _, rfl⟩

end Rng

namespace Overlay

/-! The two loops -/

def raiseRound (count node : Nat) (state : Overlay × Rng) : Option (Overlay × Rng) :=
  if state.1.degree node < count then some (state.1.linkRandomPeer node state.2) else none

/-- One round for an overlay that lacks links; it gives up when no node has room. -/
def linkRound (target : Nat) (state : Overlay × Rng) : Option (Overlay × Rng) :=
  if state.1.linkCount < target then
    match state.2.choose state.1.openNodes with
    | (none, _) => none
    | (some node, rng) => some (state.1.linkRandomPeer node rng)
  else none

/-- The loops of several nodes, one after the other. -/
inductive RaisesInTurn (count : Nat) : List Nat → Overlay × Rng → Overlay × Rng → Prop
  | nil (state : Overlay × Rng) : RaisesInTurn count [] state state
  | cons {node : Nat} {rest : List Nat} {state middle last : Overlay × Rng}
      (first : Ends (raiseRound count node) state middle)
      (later : RaisesInTurn count rest middle last) :
      RaisesInTurn count (node :: rest) state last

theorem RaisesInTurn.unique {count : Nat} {nodes : List Nat} {state last other : Overlay × Rng}
    (raises : RaisesInTurn count nodes state last)
    (again : RaisesInTurn count nodes state other) : other = last := by
  induction raises with
  | nil =>
      cases again
      rfl
  | cons first _ induction =>
      cases again with
      | cons second later =>
          rw [first.unique second] at later
          exact induction later

/-- The loops that build an overlay, from their start to their end. -/
def Builds (config : OverlayConfig) (state last : Overlay × Rng) : Prop :=
  if config.minimum then
    RaisesInTurn config.connectionCount (idsBelow state.1.nodeCount) state last
  else
    Ends (linkRound (state.1.nodeCount * config.connectionCount / 2)) state last

theorem Builds.unique {config : OverlayConfig} {state last other : Overlay × Rng}
    (builds : Builds config state last) (again : Builds config state other) : other = last := by
  unfold Builds at builds again
  split at builds
  · rename_i minimum
    rw [if_pos minimum] at again
    exact RaisesInTurn.unique builds again
  · rename_i average
    rw [if_neg average] at again
    exact Ends.unique builds again

variable {overlay middle after : Overlay} {node peer count added more : Nat}

/-! Room -/

theorem degree_link (simple : overlay.Simple) (known : node < overlay.nodeCount)
    (candidate : peer ∈ overlay.candidates node) (other : Nat) :
    (overlay.link node peer).degree other =
      overlay.degree other + (if other = node then 1 else 0) + if other = peer then 1 else 0 := by
  obtain ⟨peerKnown, different, unlinked⟩ := of_mem_candidates candidate
  have unlinkedBack : node ∉ overlay.peers peer := fun linked =>
    unlinked (simple.symmetric linked)
  have grown : ∀ {peers : List Nat} {last : Nat}, last ∉ peers →
      (addPeer peers last).length = peers.length + 1 := by
    intro peers last absent
    rw [addPeer, if_neg (by simpa using absent), List.length_append, List.length_singleton]
  unfold degree
  rw [peers_link known peerKnown different.symm]
  split_ifs with isNode isPeer isPeer
  · exact absurd (isPeer.symm.trans isNode) different
  · rw [grown unlinked, isNode]
  · rw [grown unlinkedBack, isPeer]
  · rfl

theorem linkCount_link (simple : overlay.Simple) (known : node < overlay.nodeCount)
    (candidate : peer ∈ overlay.candidates node) :
    (overlay.link node peer).linkCount = overlay.linkCount + 1 := by
  obtain ⟨peerKnown, different, -⟩ := of_mem_candidates candidate
  have before := simple.handshake
  have now := (simple.link known peerKnown different.symm).handshake
  have ends : ((List.range overlay.nodeCount).map (overlay.link node peer).degree).sum =
      ((List.range overlay.nodeCount).map overlay.degree).sum + 1 + 1 := by
    have sums : ∀ share : Nat → Nat, ((List.range overlay.nodeCount).map share).sum =
        ∑ id ∈ Finset.range overlay.nodeCount, share id := fun _ => rfl
    simp only [sums, degree_link simple known candidate, Finset.sum_add_distrib,
      Finset.sum_ite_eq', Finset.mem_range, known, peerKnown, if_true]
  rw [nodeCount_link, ends] at now
  omega

theorem candidates_ne_nil (few : overlay.nodeCount < Network.maxNodes)
    (room : overlay.degree node + 1 < overlay.nodeCount) : overlay.candidates node ≠ [] := by
  intro none
  have everyone : List.range overlay.nodeCount ⊆ node :: overlay.peers node := by
    intro other inside
    by_contra absent
    rw [List.mem_cons, not_or] at absent
    rw [← idsBelow_of_lt few] at inside
    have candidate := mem_candidates.mpr ⟨inside, absent.1, absent.2⟩
    rw [none] at candidate
    cases candidate
  have few := (List.nodup_range.subperm everyone).length_le
  rw [List.length_range, List.length_cons] at few
  exact absurd room (Nat.not_lt.mpr few)

theorem openNodes_ne_nil (simple : overlay.Simple) (few : overlay.nodeCount < Network.maxNodes)
    (room : 2 * overlay.linkCount < overlay.nodeCount * (overlay.nodeCount - 1)) :
    overlay.openNodes ≠ [] := by
  intro none
  have full : ∀ node ∈ List.range overlay.nodeCount,
      overlay.nodeCount - 1 ≤ overlay.degree node := by
    intro node inside
    rw [← idsBelow_of_lt few] at inside
    have closed := List.filter_eq_nil_iff.mp none node inside
    simpa using closed
  have ends := List.card_nsmul_le_sum ((List.range overlay.nodeCount).map overlay.degree)
    (overlay.nodeCount - 1) (by simpa using full)
  rw [← simple.handshake, List.length_map, List.length_range, smul_eq_mul] at ends
  exact absurd room (Nat.not_lt.mpr ends)

/-! Growth -/

/-- The overlay with the stated number of further links, and all those that it had. -/
structure Widened (overlay : Overlay) (added : Nat) (after : Overlay) : Prop where
  simple : after.Simple
  nodeCount : after.nodeCount = overlay.nodeCount
  seen : after.seen = overlay.seen
  kept : ∀ node, overlay.peers node <+: after.peers node
  linkCount : after.linkCount = overlay.linkCount + added

namespace Widened

theorem refl (simple : overlay.Simple) : overlay.Widened 0 overlay where
  simple := simple
  nodeCount := rfl
  seen := rfl
  kept _ := List.prefix_rfl
  linkCount := rfl

theorem trans (first : overlay.Widened added middle) (second : middle.Widened more after) :
    overlay.Widened (added + more) after where
  simple := second.simple
  nodeCount := second.nodeCount.trans first.nodeCount
  seen := second.seen.trans first.seen
  kept node := (first.kept node).trans (second.kept node)
  linkCount := by rw [second.linkCount, first.linkCount, Nat.add_assoc]

theorem degree_le (widened : overlay.Widened added after) (node : Nat) :
    overlay.degree node ≤ after.degree node :=
  (widened.kept node).length_le

end Widened

theorem widened_link (simple : overlay.Simple) (known : node < overlay.nodeCount)
    (candidate : peer ∈ overlay.candidates node) :
    overlay.Widened 1 (overlay.link node peer) where
  simple := by
    obtain ⟨peerKnown, different, -⟩ := of_mem_candidates candidate
    exact simple.link known peerKnown different.symm
  nodeCount := nodeCount_link overlay node peer
  seen := rfl
  kept other := by
    obtain ⟨peerKnown, different, -⟩ := of_mem_candidates candidate
    have longer : ∀ peers last, peers <+: addPeer peers last := by
      intro peers last
      unfold addPeer
      split
      · exact List.prefix_rfl
      · exact List.prefix_append peers [last]
    rw [peers_link known peerKnown different.symm]
    split_ifs with isNode isPeer
    · rw [isNode]
      exact longer _ _
    · rw [isPeer]
      exact longer _ _
    · exact List.prefix_rfl
  linkCount := linkCount_link simple known candidate

theorem linkRandomPeer_of_room (simple : overlay.Simple)
    (few : overlay.nodeCount < Network.maxNodes)
    (room : overlay.degree node + 1 < overlay.nodeCount) (known : node < overlay.nodeCount)
    (rng : Rng) :
    overlay.Widened 1 (overlay.linkRandomPeer node rng).1 ∧
      (overlay.linkRandomPeer node rng).1.degree node = overlay.degree node + 1 := by
  obtain ⟨peer, candidate, last, chosen⟩ := Rng.exists_choose (candidates_ne_nil few room) rng
  rw [linkRandomPeer, chosen]
  obtain ⟨-, different, -⟩ := of_mem_candidates candidate
  refine ⟨widened_link simple known candidate, ?_⟩
  rw [degree_link simple known candidate, if_pos rfl, if_neg different.symm]

/-! Every node gets its peers -/

theorem raiseDegree_ends (simple : overlay.Simple)
    (few : overlay.nodeCount < Network.maxNodes) (known : node < overlay.nodeCount)
    {missing : Nat} (lacks : missing = count - overlay.degree node)
    (room : count < overlay.nodeCount) (rng : Rng) :
    Ends (raiseRound count node) (overlay, rng) (raiseDegree node missing overlay rng) ∧
      overlay.Widened missing (raiseDegree node missing overlay rng).1 ∧
      count ≤ (raiseDegree node missing overlay rng).1.degree node := by
  induction missing generalizing overlay rng with
  | zero =>
      have enough : count ≤ overlay.degree node := by omega
      exact ⟨.done (if_neg (Nat.not_lt.mpr enough)), .refl simple, enough⟩
  | succ missing induction =>
      have short : overlay.degree node < count := by omega
      obtain ⟨widened, raised⟩ := linkRandomPeer_of_room simple few (by omega) known rng
      obtain ⟨ends, later, reached⟩ := induction widened.simple (by rwa [widened.nodeCount])
        (by rwa [widened.nodeCount]) (by omega) (by rwa [widened.nodeCount])
        (overlay.linkRandomPeer node rng).2
      have once : raiseRound count node (overlay, rng) =
          some (overlay.linkRandomPeer node rng) := if_pos short
      rw [raiseDegree]
      refine ⟨.again once ends, ?_, reached⟩
      rw [Nat.add_comm missing 1]
      exact widened.trans later

/-- What nodes lack at first bounds the number of links that they are given in turn, since a
link for one of them may serve another one. -/
theorem raiseDegrees_ends (simple : overlay.Simple)
    (few : overlay.nodeCount < Network.maxNodes) {nodes : List Nat}
    (known : ∀ node ∈ nodes, node < overlay.nodeCount) (room : count < overlay.nodeCount)
    (rng : Rng) :
    RaisesInTurn count nodes (overlay, rng) (raiseDegrees count nodes overlay rng) ∧
      (∃ added, added ≤ (nodes.map fun node => count - overlay.degree node).sum ∧
        overlay.Widened added (raiseDegrees count nodes overlay rng).1) ∧
      ∀ node ∈ nodes, count ≤ (raiseDegrees count nodes overlay rng).1.degree node := by
  induction nodes generalizing overlay rng with
  | nil => exact ⟨.nil _, ⟨0, Nat.zero_le _, .refl simple⟩, List.forall_mem_nil _⟩
  | cons node rest induction =>
      obtain ⟨nodeKnown, restKnown⟩ := List.forall_mem_cons.mp known
      obtain ⟨ends, widened, reached⟩ := raiseDegree_ends simple few nodeKnown rfl room rng
      rw [raiseDegrees]
      generalize raiseDegree node (count - overlay.degree node) overlay rng = middle
        at ends widened reached ⊢
      obtain ⟨later, ⟨added, least, grown⟩, others⟩ := induction widened.simple
        (by rwa [widened.nodeCount]) (by rwa [widened.nodeCount]) (by rwa [widened.nodeCount])
        middle.2
      refine ⟨.cons ends later, ⟨count - overlay.degree node + added, ?_, widened.trans grown⟩,
        List.forall_mem_cons.mpr ⟨reached.trans (grown.degree_le node), others⟩⟩
      have fewer : (rest.map fun other => count - middle.1.degree other).sum ≤
          (rest.map fun other => count - overlay.degree other).sum :=
        List.sum_le_sum fun other _ => Nat.sub_le_sub_left (widened.degree_le other) count
      rw [List.map_cons, List.sum_cons]
      omega

/-! The overlay gets its links -/

theorem addLinks_ends (simple : overlay.Simple) (few : overlay.nodeCount < Network.maxNodes)
    {target missing : Nat}
    (lacks : missing = target - overlay.linkCount)
    (room : 2 * target ≤ overlay.nodeCount * (overlay.nodeCount - 1)) (rng : Rng) :
    Ends (linkRound target) (overlay, rng) (addLinks missing overlay rng) ∧
      overlay.Widened missing (addLinks missing overlay rng).1 := by
  induction missing generalizing overlay rng with
  | zero =>
      have enough : target ≤ overlay.linkCount := by omega
      exact ⟨.done (if_neg (Nat.not_lt.mpr enough)), .refl simple⟩
  | succ missing induction =>
      have short : overlay.linkCount < target := by omega
      obtain ⟨node, hasRoom, drawn, chosen⟩ :=
        Rng.exists_choose (openNodes_ne_nil simple few (by omega)) rng
      obtain ⟨inside, below⟩ := List.mem_filter.mp hasRoom
      rw [decide_eq_true_eq] at below
      obtain ⟨widened, -⟩ := linkRandomPeer_of_room simple few (by omega)
        (lt_of_mem_idsBelow inside) drawn
      have linked := widened.linkCount
      obtain ⟨ends, later⟩ := induction widened.simple (by rwa [widened.nodeCount])
        (by omega) (by rwa [widened.nodeCount]) (overlay.linkRandomPeer node drawn).2
      have once : linkRound target (overlay, rng) =
          some (overlay.linkRandomPeer node drawn) := by
        rw [linkRound, if_pos short, chosen]
      rw [addLinks, chosen]
      refine ⟨.again once ends, ?_⟩
      rw [Nat.add_comm missing 1]
      exact widened.trans later

theorem build_ends (simple : overlay.Simple) (few : overlay.nodeCount < Network.maxNodes)
    {config : OverlayConfig} (room : config.connectionCount < overlay.nodeCount) (rng : Rng) :
    Builds config (overlay, rng) (overlay.build config rng) ∧
      ∃ added, overlay.Widened added (overlay.build config rng).1 ∧
        (config.minimum = true →
          added ≤ ((List.range overlay.nodeCount).map fun node =>
            config.connectionCount - overlay.degree node).sum ∧
          ∀ node < overlay.nodeCount,
            config.connectionCount ≤ (overlay.build config rng).1.degree node) ∧
        (config.minimum = false →
          added = overlay.nodeCount * config.connectionCount / 2 - overlay.linkCount) := by
  unfold Builds build
  rw [idsBelow_of_lt few]
  cases minimum : config.minimum with
  | true =>
      obtain ⟨ends, ⟨added, least, widened⟩, reached⟩ :=
        raiseDegrees_ends simple few (fun _ => List.mem_range.mp) room rng
      exact ⟨ends, added, widened,
        fun _ => ⟨least, fun node known => reached node (List.mem_range.mpr known)⟩, nofun⟩
  | false =>
      have pairs : overlay.nodeCount * config.connectionCount ≤
          overlay.nodeCount * (overlay.nodeCount - 1) :=
        Nat.mul_le_mul_left _ (by omega)
      obtain ⟨ends, widened⟩ := addLinks_ends simple few rfl
        (show 2 * (overlay.nodeCount * config.connectionCount / 2) ≤ _ by omega) rng
      exact ⟨ends, _, widened, nofun, fun _ => rfl⟩

theorem build_full (full : overlay.nodeCount = Network.maxNodes) (config : OverlayConfig)
    (rng : Rng) :
    Builds config (overlay, rng) (overlay, rng) ∧ overlay.build config rng = (overlay, rng) := by
  have nobody : idsBelow overlay.nodeCount = [] := by rw [full, idsBelow_maxNodes]
  have noRoom : overlay.openNodes = [] := by rw [openNodes, nobody, List.filter_nil]
  unfold Builds build
  rw [nobody]
  cases config.minimum with
  | true => exact ⟨.nil _, rfl⟩
  | false =>
      have idle : ∀ target, linkRound target (overlay, rng) = none := by
        intro target
        rw [linkRound, noRoom]
        exact ite_self none
      have unchanged : ∀ missing, addLinks missing overlay rng = (overlay, rng) := by
        intro missing
        cases missing with
        | zero => rfl
        | succ missing =>
            rw [addLinks, noRoom]
            rfl
      exact ⟨.done (idle _), unchanged _⟩

end Overlay

section OverlayBuilding

variable {P : Protocol}

theorem Network.setPeers_refused (network : Network P) {asked : OverlayConfig}
    (outside : ¬ (1 ≤ asked.connectionCount ∧ asked.connectionCount < network.nodeCount)) :
    network.setPeers asked = (.error (.invalidParameter
      (.connectionCount asked.connectionCount network.nodeCount)), network) := by
  unfold setPeers OverlayConfig.validate
  rw [if_pos (by omega)]

theorem Network.setPeers_accepted (network : Network P) {asked : OverlayConfig}
    (positive : 1 ≤ asked.connectionCount) (room : asked.connectionCount < network.nodeCount) :
    network.setPeers asked = (.ok (), { network with
      overlay := (network.overlay.build asked network.rng).1
      rng := (network.overlay.build asked network.rng).2 }) := by
  unfold setPeers OverlayConfig.validate
  rw [if_neg (by omega)]

/-- The loops that build an overlay end and remove no link. The degrees are as asked for unless
there are as many nodes as there can be; then nothing happens. -/
theorem Program.overlay_built {α : Type} (behaviour : Behaviour P) (config : NetworkConfig)
    (latency : Latency) (genesis : P.Payload) (life : Program P α) (fuel : Nat)
    {past rest : List (Moment P)}
    (lived : (life.record (Network.recordRun behaviour fuel)
      (.new config latency genesis)).history = past ++ rest)
    (network : Network P) (reached : network = stateAfter (.new config latency genesis) past)
    (rng : Rng) (asked : OverlayConfig) :
    network.nodeCount ≤ Network.maxNodes ∧
    (1 ≤ asked.connectionCount → asked.connectionCount < network.nodeCount →
      ∃ overlay last,
        { network with rng := rng }.setPeers asked =
          (.ok (), { network with overlay := overlay, rng := last }) ∧
        (∀ stop, Overlay.Builds asked (network.overlay, rng) stop ↔ stop = (overlay, last)) ∧
        (∀ node, network.overlay.peers node <+: overlay.peers node) ∧
        (network.nodeCount < Network.maxNodes →
          (asked.minimum = true →
            (∀ node < network.nodeCount, asked.connectionCount ≤ overlay.degree node) ∧
            ∃ added, overlay.linkCount = network.overlay.linkCount + added ∧
              added ≤ ((List.range network.nodeCount).map fun node =>
                asked.connectionCount - network.overlay.degree node).sum) ∧
          (asked.minimum = false →
            overlay.linkCount = max network.overlay.linkCount
              (network.nodeCount * asked.connectionCount / 2))) ∧
        (network.nodeCount = Network.maxNodes → overlay = network.overlay ∧ last = rng)) ∧
    (¬ (1 ≤ asked.connectionCount ∧ asked.connectionCount < network.nodeCount) →
      { network with rng := rng }.setPeers asked =
        (.error (.invalidParameter
          (.connectionCount asked.connectionCount network.nodeCount)),
          { network with rng := rng })) := by
  subst reached
  have meshed := (past_passes lived).preserves (motive := fun _ network => network.Meshed)
    (Network.meshed_new config latency genesis) fun _ _ lawful => lawful.meshed
  generalize stateAfter (.new config latency genesis) past = network at meshed ⊢
  refine ⟨meshed.few, fun positive room => ?_, fun outside =>
    { network with rng := rng }.setPeers_refused outside⟩
  have accepted := { network with rng := rng }.setPeers_accepted positive room
  rcases Nat.lt_or_eq_of_le meshed.few with few | full
  · obtain ⟨builds, added, widened, minimum, average⟩ :=
      Overlay.build_ends meshed.simple (by rwa [meshed.count]) (by rwa [meshed.count]) rng
    rw [meshed.count] at minimum average
    refine ⟨_, _, accepted, fun stop => ⟨builds.unique, ?_⟩, widened.kept,
      fun _ => ⟨fun isMinimum => ?_, fun isAverage => ?_⟩,
      fun full => absurd full (Nat.ne_of_lt few)⟩
    · rintro rfl
      exact builds
    · obtain ⟨least, reached⟩ := minimum isMinimum
      exact ⟨reached, added, widened.linkCount, least⟩
    · refine widened.linkCount.trans ?_
      rw [average isAverage]
      omega
  · obtain ⟨builds, built⟩ :=
      Overlay.build_full (meshed.count.trans full) asked rng
    rw [built] at accepted
    refine ⟨network.overlay, rng, accepted, fun stop => ⟨builds.unique, ?_⟩,
      fun _ => List.prefix_rfl, fun few => absurd full (Nat.ne_of_lt few), fun _ => ⟨rfl, rfl⟩⟩
    rintro rfl
    exact builds

theorem relay_overlay_built :
    (∃ overlay last,
      { stateAfter relay.initial relay.meshed with rng := .ofSeed 7 }.setPeers ⟨3, true⟩ =
        (.ok (),
          { stateAfter relay.initial relay.meshed with overlay := overlay, rng := last }) ∧
      (∀ node < 4, 3 ≤ overlay.degree node) ∧
      ∃ added ≤ 6, overlay.linkCount = 3 + added) ∧
    (∃ overlay last,
      { stateAfter relay.initial relay.meshed with rng := .ofSeed 7 }.setPeers ⟨2, false⟩ =
        (.ok (),
          { stateAfter relay.initial relay.meshed with overlay := overlay, rng := last }) ∧
      overlay.linkCount = 4) ∧
    { stateAfter relay.initial relay.meshed with rng := .ofSeed 7 }.setPeers ⟨4, true⟩ =
      (.error (.invalidParameter (.connectionCount 4 4)),
        { stateAfter relay.initial relay.meshed with rng := .ofSeed 7 }) := by
  have built := Program.overlay_built relay.behaviour {} (LatencyModel.fixed 2).latency ()
    relay.meshing 5 (List.append_nil _).symm (stateAfter relay.initial relay.meshed) rfl (.ofSeed 7)
  have nodes : (stateAfter relay.initial relay.meshed).nodeCount = 4 := by decide +kernel
  have few : (stateAfter relay.initial relay.meshed).nodeCount < Network.maxNodes := by
    rw [nodes]
    decide
  have links : (stateAfter relay.initial relay.meshed).overlay.linkCount = 3 := by decide +kernel
  have lacking : ((List.range (stateAfter relay.initial relay.meshed).nodeCount).map fun node =>
      3 - (stateAfter relay.initial relay.meshed).overlay.degree node).sum = 6 := by
    decide +kernel
  refine ⟨?_, ?_, ?_⟩
  · obtain ⟨overlay, last, accepted, -, -, degrees, -⟩ :=
      (built ⟨3, true⟩).2.1 (by decide) (by rw [nodes]; decide)
    obtain ⟨reached, added, linked, least⟩ := (degrees few).1 rfl
    rw [lacking] at least
    rw [nodes] at reached
    rw [links] at linked
    exact ⟨overlay, last, accepted, reached, added, least, linked⟩
  · obtain ⟨overlay, last, accepted, -, -, degrees, -⟩ :=
      (built ⟨2, false⟩).2.1 (by decide) (by rw [nodes]; decide)
    have linked := (degrees few).2 rfl
    rw [links, nodes] at linked
    exact ⟨overlay, last, accepted, linked⟩
  · have refused := (built ⟨4, true⟩).2.2 (by rw [nodes]; decide)
    rwa [nodes] at refused

/-! A crowd -/

def relay.crowding : (missing : Nat) → Program relay Unit
  | 0 => .pure ()
  | missing + 1 =>
      .call (.addNode (.new ⟨0, 0, none⟩ false) ()) fun _ => relay.crowding missing

/-- A network that has not begun, with the stated number of nodes and without links. -/
structure relay.Crowd (count : Nat) (network : Network relay) : Prop where
  early : network.started = false
  whole : network.partition = none
  nodeCount : network.nodeCount = count
  unlinked : network.overlay.peerLists = List.replicate count []

theorem relay.Crowd.addNode {count : Nat} {network : Network relay}
    (crowd : relay.Crowd count network) (room : count < Network.maxNodes) (info : NodeInfo) :
    ∃ after, network.addNode info () = (.ok count, after) ∧ relay.Crowd (count + 1) after := by
  obtain ⟨early, whole, rfl, unlinked⟩ := crowd
  refine ⟨network.joined info (), ?_, early, whole, ?_, ?_⟩
  · unfold Network.addNode
    rw [if_neg (by simp [early]), if_neg (by simp [whole]), if_neg (Nat.not_le.mpr room)]
    rfl
  · exact List.length_append
  · change network.overlay.peerLists ++ [[]] = _
    rw [unlinked, List.replicate_succ']

theorem relay.Crowd.exec_crowding (run : Runner relay) {missing count : Nat}
    {network : Network relay} (crowd : relay.Crowd count network)
    (room : count + missing ≤ Network.maxNodes) :
    ∃ after, (relay.crowding missing).exec run network = some ((), after) ∧
      relay.Crowd (count + missing) after := by
  induction missing generalizing count network with
  | zero => exact ⟨network, rfl, crowd⟩
  | succ missing induction =>
      obtain ⟨middle, added, larger⟩ :=
        crowd.addNode (by omega) (.new ⟨0, 0, none⟩ false)
      obtain ⟨after, executed, full⟩ := induction larger (by omega)
      refine ⟨after, ?_, by rwa [Nat.add_right_comm, Nat.add_assoc] at full⟩
      rw [relay.crowding, Program.exec]
      dsimp only [Op.perform]
      rw [added]
      exact executed

theorem relay.exists_crowd :
    ∃ network, (relay.crowding Network.maxNodes).exec (Network.runUntil relay.behaviour 0)
        relay.initial = some ((), network) ∧
      relay.Crowd Network.maxNodes network := by
  have nobody : relay.Crowd 0 relay.initial := ⟨rfl, rfl, rfl, rfl⟩
  obtain ⟨network, executed, crowd⟩ :=
    nobody.exec_crowding (Network.runUntil relay.behaviour 0)
      (Nat.le_of_eq (Nat.zero_add Network.maxNodes))
  rw [Nat.zero_add] at crowd
  exact ⟨network, executed, crowd⟩

theorem relay.Crowd.degree {count : Nat} {network : Network relay}
    (crowd : relay.Crowd count network) (node : Nat) : network.overlay.degree node = 0 := by
  rw [Overlay.degree, Overlay.peers, Overlay.peers?, crowd.unlinked, List.getElem?_replicate]
  split <;> rfl

theorem relay.Crowd.linkCount {count : Nat} {network : Network relay}
    (crowd : relay.Crowd count network) : network.overlay.linkCount = 0 := by
  have ends : network.overlay.degreeSum = (List.replicate count 0).sum := by
    rw [Overlay.degreeSum, crowd.unlinked, List.map_replicate]
    rfl
  rw [Overlay.linkCount, ends, List.sum_replicate, smul_zero, Nat.zero_div]

theorem relay_crowd_stays_unlinked :
    ∃ network, (relay.crowding Network.maxNodes).exec (Network.runUntil relay.behaviour 0)
        relay.initial = some ((), network) ∧
      network.nodeCount = 4294967296 ∧
      network.setPeers ⟨1, true⟩ = (.ok (), network) ∧
      network.overlay.degree 0 = 0 ∧
      network.setPeers ⟨1, false⟩ = (.ok (), network) ∧
      network.overlay.linkCount = 0 := by
  obtain ⟨network, executed, crowd⟩ := relay.exists_crowd
  have full : network.overlay.nodeCount = Network.maxNodes := by
    rw [Overlay.nodeCount, crowd.unlinked, List.length_replicate]
  have room : 1 < network.nodeCount := by
    rw [crowd.nodeCount]
    decide
  have unchanged : ∀ minimum, network.setPeers ⟨1, minimum⟩ = (.ok (), network) := by
    intro minimum
    rw [network.setPeers_accepted (Nat.le_refl 1) room, (Overlay.build_full full _ _).2]
  exact ⟨network, executed, crowd.nodeCount, unchanged true, crowd.degree 0, unchanged false,
    crowd.linkCount⟩

end OverlayBuilding

end Simnet
