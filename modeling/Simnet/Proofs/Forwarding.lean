import Simnet.Proofs.Atomicity
import Simnet.Proofs.FloodReach
import Simnet.Proofs.Layers

namespace Simnet

/-! One forward of a flood, and how it fails. The plan of a forward bounds the times at
which its copies leave, but not those at which they arrive. So a forward may still fail
when its node is marked already, and then the mark stays, and the copies sent so far. -/

section Forwarding

variable {P : Protocol}

/-- A message that leaves at `origin` would arrive after the end of time. -/
def Late (origin : Nat) (error : Error) : Prop :=
  ∃ delay, maxTime < origin + delay ∧ error = .invalidParameter (.timeOverflow origin delay)

namespace Network

variable {network after : Network P} {message : P.Message} {header : FloodHeader}
variable {node sender : Nat} {source : Option Nat} {error : Error}

def sendCopies (network : Network P) (message : P.Message) (header : FloodHeader)
    (node : Nat) (plan : FloodPlan) : Outcome P Unit :=
  if header.delayBetweenPeers = 0 then
    network.sendToMany message plan.departure node plan.receivers
  else
    sendStaggered message node header.delayBetweenPeers plan.departure
      (network.rng.shuffle plan.receivers).1
      { network with rng := (network.rng.shuffle plan.receivers).2 }

inductive Forwards (network : Network P) (message : P.Message) (header : FloodHeader)
    (node : Nat) (source : Option Nat) : Except Error Bool → Network P → Prop
  | refused {error : Error}
      (planned : network.planFlood header node source = .error error) :
      Forwards network message header node source (.error error) network
  | ignored (planned : network.planFlood header node source = .ok none) :
      Forwards network message header node source (.ok false) network
  | passed {plan : FloodPlan} {after : Network P}
      (planned : network.planFlood header node source = .ok (some plan))
      (sent : (network.markSeen header.messageId node).sendCopies message header node plan =
        (.ok (), after)) :
      Forwards network message header node source (.ok true) after
  | broken {plan : FloodPlan} {error : Error} {after : Network P}
      (planned : network.planFlood header node source = .ok (some plan))
      (failed : (network.markSeen header.messageId node).sendCopies message header node
        plan = (.error error, after)) :
      Forwards network message header node source (.error error) after

theorem forwards_of_forwardFlood {outcome : Except Error Bool}
    (forwarded : network.forwardFlood message header node source = (outcome, after)) :
    network.Forwards message header node source outcome after := by
  unfold forwardFlood at forwarded
  split at forwarded
  · rename_i error planned
    cases forwarded
    exact .refused planned
  · rename_i planned
    cases forwarded
    exact .ignored planned
  · rename_i plan planned
    dsimp only at forwarded
    split at forwarded
    · rename_i error last failed
      cases forwarded
      exact .broken planned failed
    · rename_i last sent
      cases forwarded
      exact .passed planned sent

theorem sameLayers_sendCopies {plan : FloodPlan} {outcome : Except Error Unit}
    (sent : network.sendCopies message header node plan = (outcome, after)) :
    SameLayers network after := by
  unfold sendCopies at sent
  split at sent
  · exact sameLayers_sendToMany sent
  · have drawn : SameLayers network
        { network with rng := (network.rng.shuffle plan.receivers).2 } := ⟨rfl, rfl⟩
    exact drawn.trans (sameLayers_sendStaggered sent)

theorem tree_forwardFlood {outcome : Except Error Bool}
    (forwarded : network.forwardFlood message header node source = (outcome, after)) :
    after.tree = network.tree := by
  cases forwards_of_forwardFlood forwarded with
  | refused _ | ignored _ => rfl
  | passed _ sent | broken _ sent => exact (sameLayers_sendCopies sent).tree

/-! Sends between known nodes -/

theorem exists_node_of_known {id : Nat} (known : id < network.nodeCount) :
    ∃ record, network.node id = .ok record := by
  cases found : network.node? id with
  | none =>
      have unknown := node?_eq_none_iff.mp found
      omega
  | some record => exact ⟨record, node_eq_ok_iff.mpr found⟩

theorem late_of_fate {origin receiver : Nat} {rng : Rng}
    (senderKnown : sender < network.nodeCount) (receiverKnown : receiver < network.nodeCount)
    (failed : network.fate origin sender receiver rng = .error error) :
    Late origin error := by
  obtain ⟨sourceNode, sourceFound⟩ := exists_node_of_known senderKnown
  obtain ⟨targetNode, targetFound⟩ := exists_node_of_known receiverKnown
  simp only [fate, sourceFound, targetFound] at failed
  split at failed
  · cases failed
  · split at failed
    · cases failed
    · split at failed
      · cases failed
      · split at failed
        · rename_i overflow
          cases failed
          exact ⟨_, timeAfter_eq_error_iff.mp overflow⟩
        · cases failed

theorem late_of_fates {origin : Nat} {receivers : List Nat} {rng : Rng}
    (senderKnown : sender < network.nodeCount)
    (known : ∀ id ∈ receivers, id < network.nodeCount)
    (failed : network.fates origin sender receivers rng = .error error) :
    Late origin error := by
  induction receivers generalizing rng with
  | nil => cases failed
  | cons receiver rest induction =>
      simp only [fates] at failed
      split at failed
      · rename_i first
        cases failed
        exact late_of_fate senderKnown (known receiver List.mem_cons_self) first
      · split at failed
        · rename_i later
          cases failed
          apply induction _ later
          intro id member
          exact known id (List.mem_cons_of_mem receiver member)
        · cases failed

theorem checkSend_of_known {origin : Nat} {receivers : List Nat}
    (notPast : network.time ≤ origin)
    (known : ∀ id ∈ sender :: receivers, id < network.nodeCount) :
    network.checkSend origin sender receivers = .ok () := by
  have everyone : (sender :: receivers).find? (fun id => (network.node? id).isNone) =
      none := by
    rw [List.find?_eq_none]
    intro id member unknown
    have beyond := node?_eq_none_iff.mp (Option.isNone_iff_eq_none.mp unknown)
    have inside := known id member
    omega
  unfold checkSend
  rw [if_neg (by omega), everyone]

theorem late_of_sendToMany {origin : Nat} {receivers : List Nat}
    (failed : network.sendToMany message origin sender receivers = (.error error, after))
    (notPast : network.time ≤ origin)
    (known : ∀ id ∈ sender :: receivers, id < network.nodeCount) :
    after = network ∧ Late origin error := by
  unfold sendToMany at failed
  rw [checkSend_of_known notPast known] at failed
  dsimp only at failed
  split at failed
  · rename_i undecided
    cases failed
    refine ⟨rfl, late_of_fates (known sender List.mem_cons_self) ?_ undecided⟩
    exact fun id member => known id (List.mem_cons_of_mem sender member)
  · cases failed

theorem frame_sendToMany {origin : Nat} {receivers : List Nat}
    {outcome : Except Error Unit}
    (sent : network.sendToMany message origin sender receivers = (outcome, after)) :
    after.time = network.time ∧ network.nodeCount ≤ after.nodeCount := by
  have changes : Changes False network after := changes_sendToMany sent
  obtain ⟨pushes, effect⟩ := changes.effect
  exact ⟨effect.time, effect.growth⟩

/-- Copies sent one after the other stop at the first one that would be late, and those
before it have been sent as if they had been all. -/
theorem late_of_sendStaggered {network after : Network P} {delay departure : Nat}
    {receivers : List Nat}
    (failed : sendStaggered message sender delay departure receivers network =
      (.error error, after))
    (notPast : network.time ≤ departure)
    (known : ∀ id ∈ sender :: receivers, id < network.nodeCount) :
    ∃ sent receiver unsent, receivers = sent ++ receiver :: unsent ∧
      sendStaggered message sender delay departure sent network = (.ok (), after) ∧
      Late (departure + sent.length * delay) error := by
  induction receivers generalizing departure network with
  | nil => cases failed
  | cons receiver rest induction =>
      unfold sendStaggered at failed
      split at failed
      · rename_i single
        cases failed
        have alone : ∀ id ∈ [sender, receiver], id < network.nodeCount := by
          intro id member
          apply known
          simp only [List.mem_cons] at member ⊢
          tauto
        obtain ⟨rfl, late⟩ := late_of_sendToMany single notPast alone
        exact ⟨[], receiver, rest, rfl, rfl, by simpa using late⟩
      · rename_i middle single
        -- The other sends start from a network with the same clock and no fewer nodes.
        obtain ⟨time, growth⟩ := frame_sendToMany single
        have knownLater : ∀ id ∈ sender :: rest, id < middle.nodeCount := by
          intro id member
          have inside := known id (by simp only [List.mem_cons] at member ⊢; tauto)
          omega
        obtain ⟨sent, other, unsent, rfl, sending, late⟩ :=
          induction failed (by omega) knownLater
        refine ⟨receiver :: sent, other, unsent, rfl, ?_, ?_⟩
        · unfold sendStaggered
          rw [single]
          exact sending
        · rw [List.length_cons, Nat.succ_mul, Nat.add_comm (sent.length * delay),
            ← Nat.add_assoc]
          exact late

theorem Wired.known_of_mem_peers (wired : network.Wired) {peer : Nat}
    (linked : peer ∈ network.overlay.peers node) : peer < network.nodeCount := by
  have back := wired.sound.symmetric linked
  rw [← wired.count]
  by_contra beyond
  have nobody : network.overlay.peers? peer = none :=
    List.getElem?_eq_none (Nat.not_lt.mp beyond)
  simp [Overlay.peers, nobody] at back

theorem departure_of_planFlood {plan : FloodPlan}
    (planned : network.planFlood header node source = .ok (some plan)) :
    network.time ≤ plan.departure := by
  unfold planFlood at planned
  split at planned
  · cases planned
  · split at planned
    · cases planned
    · split at planned
      · cases planned
      · dsimp only at planned
        split at planned
        · cases planned
        · rename_i departure leaves
          split at planned
          · cases planned
          · split at planned
            · cases planned
            · cases planned
              have sum := (timeAfter_eq_ok_iff.mp leaves).1
              dsimp only
              omega

/-- What a forward leaves that fails after its node was marked. The copies are sent
together, or in a drawn order up to the first one that would be late. -/
inductive BrokenOff (network : Network P) (message : P.Message) (header : FloodHeader)
    (node : Nat) (plan : FloodPlan) (error : Error) : Network P → Prop
  | together (noStagger : header.delayBetweenPeers = 0) (late : Late plan.departure error) :
      BrokenOff network message header node plan error
        (network.markSeen header.messageId node)
  | inTurn {sent unsent : List Nat} {receiver : Nat} {after : Network P}
      (stagger : header.delayBetweenPeers ≠ 0)
      (order : (network.rng.shuffle plan.receivers).1 = sent ++ receiver :: unsent)
      (sending : sendStaggered message node header.delayBetweenPeers plan.departure sent
        { network.markSeen header.messageId node with
          rng := (network.rng.shuffle plan.receivers).2 } = (.ok (), after))
      (late : Late (plan.departure + sent.length * header.delayBetweenPeers) error) :
      BrokenOff network message header node plan error after

theorem brokenOff_of_sendCopies (wired : network.Wired) {plan : FloodPlan}
    (planned : network.planFlood header node source = .ok (some plan))
    (failed : (network.markSeen header.messageId node).sendCopies message header node plan =
      (.error error, after)) :
    network.BrokenOff message header node plan error after := by
  have notPast := departure_of_planFlood planned
  have nodeKnown := known_of_planFlood planned
  have peersKnown : ∀ id ∈ plan.receivers, id < network.nodeCount := by
    rcases planFlood_eq_ok planned with ⟨-, impossible⟩ | ⟨-, departure, found⟩
    · cases impossible
    · cases found
      intro id member
      exact wired.known_of_mem_peers (List.mem_filter.mp member).1
  unfold sendCopies at failed
  split at failed
  · rename_i noStagger
    obtain ⟨rfl, late⟩ := late_of_sendToMany failed notPast
      (List.forall_mem_cons.mpr ⟨nodeKnown, peersKnown⟩)
    exact .together noStagger late
  · rename_i stagger
    have drawnKnown : ∀ id ∈ (network.rng.shuffle plan.receivers).1,
        id < network.nodeCount := by
      intro id drawn
      exact peersKnown id ((Rng.shuffle_perm _ _).mem_iff.mp drawn)
    obtain ⟨sent, receiver, unsent, order, sending, late⟩ := late_of_sendStaggered failed
      notPast (List.forall_mem_cons.mpr ⟨nodeKnown, drawnKnown⟩)
    exact .inTurn stagger order sending late

theorem BrokenOff.marked {plan : FloodPlan}
    (broken : network.BrokenOff message header node plan error after) :
    after.overlay = network.overlay.markSeen header.messageId node := by
  cases broken with
  | together => rfl
  | inTurn _ _ sending _ => exact (sameLayers_sendStaggered sending).overlay

/-- A forward that fails was refused by its plan and has changed nothing, or a copy would
have arrived after the end of time, and the node is marked that was not before. -/
structure FailedForward (network : Network P) (message : P.Message) (header : FloodHeader)
    (node : Nat) (source : Option Nat) (error : Error) (after : Network P) : Prop where
  cause : (network.planFlood header node source = .error error ∧ after = network) ∨
    ∃ plan, network.planFlood header node source = .ok (some plan) ∧
      network.BrokenOff message header node plan error after
  seen : after = network ∨
    (network.overlay.hasSeen header.messageId node = false ∧
      after.overlay.hasSeen header.messageId node = true)

theorem failedForward_of_forwardFlood (wired : network.Wired)
    (failed : network.forwardFlood message header node source = (.error error, after)) :
    network.FailedForward message header node source error after := by
  cases forwards_of_forwardFlood failed with
  | refused planned => exact ⟨.inl ⟨planned, rfl⟩, .inl rfl⟩
  | @broken plan _ _ planned unsent =>
      have broken := brokenOff_of_sendCopies wired planned unsent
      refine ⟨.inr ⟨plan, planned, broken⟩, .inr ⟨?_, ?_⟩⟩
      · rcases planFlood_eq_ok planned with ⟨-, impossible⟩ | ⟨new, -⟩
        · cases impossible
        · exact new
      · rw [broken.marked]
        have listed := listed_of_planFlood planned
        exact (Overlay.hasSeen_markSeen listed _ _).mpr (.inl ⟨rfl, rfl⟩)

end Network

/-- A flood that fails changes nothing when its plan is refused. When a copy would arrive after
the end of time its node is marked and the copies before that one are sent. -/
theorem Program.failed_floods {α : Type} (behaviour : Behaviour P) (config : NetworkConfig)
    (latency : Latency) (genesis : P.Payload) (life : Program P α) (fuel : Nat)
    {past rest : List (Moment P)}
    (lived : (life.record (Network.recordRun behaviour fuel)
      (.new config latency genesis)).history = past ++ rest)
    {network : Network P} (reached : network = stateAfter (.new config latency genesis) past)
    (message : P.Message) (header : FloodHeader) :
    (∀ origin error after,
      network.flood message header origin = (.error error, after) →
        network.FailedForward message header origin none error after) ∧
    ∀ sender receiver error after,
      network.receiveFlood message header sender receiver = (.error error, after) →
        network.FailedForward message header receiver (some sender) error after := by
  have wired : network.Wired := by
    rw [reached]
    exact (past_passes lived).preserves (motive := fun _ network => network.Wired)
      (Network.wired_new config latency genesis) fun _ _ lawful before => lawful.wired before
  constructor
  · intro origin error after failed
    unfold Network.flood at failed
    split at failed
    · rename_i forwarded
      cases failed
      exact Network.failedForward_of_forwardFlood wired forwarded
    · cases failed
  · intro sender receiver error after failed
    exact Network.failedForward_of_forwardFlood wired failed

theorem gossip_failed_floods :
    ∃ after, gossip.built.flood ⟨9, maxTime - 3, 2⟩ ⟨9, maxTime - 3, 2⟩ 0 =
        (.error (.invalidParameter (.timeOverflow (maxTime - 1) 2)), after) ∧
      after.counters.messagesSent = gossip.built.counters.messagesSent + 1 ∧
      gossip.built.FailedForward ⟨9, maxTime - 3, 2⟩ ⟨9, maxTime - 3, 2⟩ 0 none
        (.invalidParameter (.timeOverflow (maxTime - 1) 2)) after := by
  have fails : failureOf (gossip.built.flood ⟨9, maxTime - 3, 2⟩ ⟨9, maxTime - 3, 2⟩ 0).1 =
      some (.invalidParameter (.timeOverflow (maxTime - 1) 2)) := by decide +kernel
  have failed : gossip.built.flood ⟨9, maxTime - 3, 2⟩ ⟨9, maxTime - 3, 2⟩ 0 = (_, _) :=
    Prod.ext (failureOf_eq_some fails) rfl
  refine ⟨_, failed, by decide +kernel, ?_⟩
  exact (Program.failed_floods gossip.behaviour {} (LatencyModel.fixed 2).latency ()
    gossip.build 0 (List.append_nil _).symm rfl _ _).1 0 _ _ failed

/-- A flood that fails and is tried again ends well without having sent anything. -/
theorem gossip_failed_flood_marks :
    gossip.build.exec (Network.runUntil gossip.behaviour 0)
      (.new {} (LatencyModel.fixed 2).latency ()) = some (.ok (), gossip.built) ∧
    ∃ after, gossip.built.flood ⟨9, maxTime, 0⟩ ⟨9, maxTime, 0⟩ 0 =
        (.error (.invalidParameter (.timeOverflow maxTime 2)), after) ∧
      gossip.built.overlay.hasSeen 9 0 = false ∧
      after.overlay.hasSeen 9 0 = true ∧
      after.flood ⟨9, 0, 0⟩ ⟨9, 0, 0⟩ 0 = (.ok (), after) ∧
      after.counters.messagesSent = 0 :=
  ⟨rfl, (gossip.built.flood ⟨9, maxTime, 0⟩ ⟨9, maxTime, 0⟩ 0).2,
    rfl, rfl, rfl, rfl, rfl⟩

end Forwarding

end Simnet
