import Simnet.Proofs.Adjacency

namespace Simnet

/-! One forward of a flood. Without a partition and a limit on delays a send to several
receivers comes to this, whatever is drawn: a delivery is pending for each receiver that
is live, and the others are counted as down. The order of the sends does not matter. -/

namespace Rng

theorem swapIfInBounds_perm {α : Type} (items : Array α) (place other : Nat) :
    (items.swapIfInBounds place other).toList.Perm items.toList := by
  rw [Array.swapIfInBounds_def]
  split
  · split
    · exact (Array.swap_perm _ _).toList
    · exact .refl _
  · exact .refl _

theorem shuffleFrom_perm {α : Type} (place : Nat) (items : Array α) (rng : Rng) :
    (shuffleFrom place items rng).1.toList.Perm items.toList := by
  induction place generalizing items rng with
  | zero => exact .refl _
  | succ place induction =>
      rw [shuffleFrom]
      exact (induction _ _).trans (swapIfInBounds_perm items _ _)

theorem shuffle_perm {α : Type} (items : List α) (rng : Rng) :
    (shuffle items rng).1.Perm items :=
  shuffleFrom_perm _ items.toArray rng

end Rng

section Flood

open scoped List

variable {P : Protocol}

namespace Network

def isLive (network : Network P) (id : Nat) : Bool :=
  match network.node? id with
  | none => false
  | some node => ! node.info.down

/-- Nothing but a node that is down keeps a message from its receiver. -/
structure Unhindered (network : Network P) : Prop where
  whole : network.partition = none
  patient : network.config.discardAfter = none

def events (network : Network P) : List (Event P) :=
  network.queue.items.map (·.2)

theorem isLive_modifyNode (network : Network P) (id other : Nat)
    {change : Node P → Node P} (same : ∀ node, (change node).info.down = node.info.down) :
    (network.modifyNode id change).isLive other = network.isLive other := by
  unfold isLive
  rw [node?_modifyNode]
  cases network.node? other with
  | none => simp
  | some node =>
      by_cases equal : id = other
      · simp [equal, same]
      · simp [equal]

structure Fanned (message : P.Message) (sender : Nat) (before : Network P)
    (receivers : List Nat) (after : Network P) : Prop where
  live : ∀ id, after.isLive id = before.isLive id
  overlay : after.overlay = before.overlay
  partition : after.partition = before.partition
  config : after.config = before.config
  events : after.events.Perm (before.events ++
    (receivers.filter before.isLive).map fun receiver => .delivery sender receiver message)
  sent : after.counters.messagesSent =
    before.counters.messagesSent + (receivers.filter before.isLive).length
  down : after.counters.droppedDown =
    before.counters.droppedDown + (receivers.filter fun id => ! before.isLive id).length
  delivered : after.counters.messagesDelivered = before.counters.messagesDelivered

variable {message : P.Message} {sender : Nat} {before middle after : Network P}
variable {receivers later : List Nat}

namespace Fanned

theorem of_same (nodes : after.nodes = before.nodes) (overlay : after.overlay = before.overlay)
    (partition : after.partition = before.partition) (config : after.config = before.config)
    (queue : after.queue = before.queue) (counters : after.counters = before.counters) :
    Fanned message sender before [] after where
  live id := by
    unfold isLive node?
    rw [nodes]
  overlay := overlay
  partition := partition
  config := config
  events := by simp [Network.events, queue]
  sent := by simp [counters]
  down := by simp [counters]
  delivered := by rw [counters]

theorem trans (first : Fanned message sender before receivers middle)
    (second : Fanned message sender middle later after) :
    Fanned message sender before (receivers ++ later) after := by
  have same : middle.isLive = before.isLive := funext first.live
  constructor
  · intro id
    rw [second.live, first.live]
  · rw [second.overlay, first.overlay]
  · rw [second.partition, first.partition]
  · rw [second.config, first.config]
  · have events := second.events
    rw [same] at events
    rw [List.filter_append, List.map_append, ← List.append_assoc]
    exact events.trans (first.events.append_right _)
  · rw [second.sent, first.sent, same, List.filter_append, List.length_append, Nat.add_assoc]
  · rw [second.down, first.down, same, List.filter_append, List.length_append, Nat.add_assoc]
  · rw [second.delivered, first.delivered]

theorem perm (fanned : Fanned message sender before receivers after)
    (same : receivers.Perm later) : Fanned message sender before later after where
  live := fanned.live
  overlay := fanned.overlay
  partition := fanned.partition
  config := fanned.config
  events := fanned.events.trans (((same.filter _).map _).append_left _)
  sent := by rw [fanned.sent, (same.filter _).length_eq]
  down := by rw [fanned.down, (same.filter _).length_eq]
  delivered := fanned.delivered

theorem unhindered (fanned : Fanned message sender before receivers after)
    (unhindered : before.Unhindered) : after.Unhindered where
  whole := by rw [fanned.partition, unhindered.whole]
  patient := by rw [fanned.config, unhindered.patient]

end Fanned

/-- The fates that do not depend on draws: down, or delivered at some time. -/
def Fits (network : Network P) (decision : Nat × Fate) : Prop :=
  (network.isLive decision.1 = true ∧ ∃ arrival, decision.2 = .deliver arrival) ∨
    (network.isLive decision.1 = false ∧ decision.2 = .down)

theorem isLive_of_node {network : Network P} {id : Nat} {node : Node P}
    (found : network.node id = .ok node) : network.isLive id = ! node.info.down := by
  unfold isLive
  rw [node_eq_ok_iff.mp found]

theorem fits_of_fate {network : Network P} (unhindered : network.Unhindered)
    (live : network.isLive sender = true) {origin receiver : Nat} {rng rest : Rng}
    {fate : Fate} (decided : network.fate origin sender receiver rng = .ok (fate, rest)) :
    network.Fits (receiver, fate) := by
  unfold Network.fate at decided
  cases source : network.node sender with
  | error error => simp [source] at decided
  | ok sourceNode =>
      cases target : network.node receiver with
      | error error => simp [source, target] at decided
      | ok targetNode =>
          rw [isLive_of_node source, Bool.not_eq_true'] at live
          have undivided : network.isPartitioned sender receiver = false := by
            rw [isPartitioned, unhindered.whole]
          have patient : ∀ delay, network.config.discards delay = false := by
            intro delay
            rw [NetworkConfig.discards, unhindered.patient]
          simp only [source, target, live, undivided, patient, Bool.false_or, Bool.false_eq_true,
            if_false] at decided
          unfold Fits
          rw [isLive_of_node target]
          cases down : targetNode.info.down with
          | true =>
              simp only [down, if_true, Except.ok.injEq, Prod.mk.injEq] at decided
              exact .inr ⟨rfl, decided.1.symm⟩
          | false =>
              simp only [down, Bool.false_eq_true, if_false] at decided
              split at decided
              · cases decided
              · simp only [Except.ok.injEq, Prod.mk.injEq] at decided
                exact .inl ⟨rfl, _, decided.1.symm⟩

theorem fits_of_fates {network : Network P} (unhindered : network.Unhindered)
    (live : network.isLive sender = true) {origin : Nat} {rng rest : Rng}
    {decisions : List (Nat × Fate)}
    (decided : network.fates origin sender receivers rng = .ok (decisions, rest)) :
    ∀ decision ∈ decisions, network.Fits decision := by
  induction receivers generalizing rng decisions with
  | nil =>
      simp only [fates, Except.ok.injEq, Prod.mk.injEq] at decided
      obtain ⟨rfl, -⟩ := decided
      simp
  | cons receiver others induction =>
      simp only [fates] at decided
      cases first : network.fate origin sender receiver rng with
      | error error => simp [first] at decided
      | ok found =>
          obtain ⟨fate, middle⟩ := found
          cases second : network.fates origin sender others middle with
          | error error => simp [first, second] at decided
          | ok remaining =>
              obtain ⟨fates, last⟩ := remaining
              simp only [first, second, Except.ok.injEq, Prod.mk.injEq] at decided
              obtain ⟨rfl, rfl⟩ := decided
              intro decision member
              rcases List.mem_cons.mp member with rfl | inOthers
              · exact fits_of_fate unhindered live first
              · exact induction second decision inOthers

theorem fanned_commitFate (message : P.Message) (sender : Nat) {network : Network P}
    {decision : Nat × Fate} (fits : network.Fits decision) :
    Fanned message sender network [decision.1] (commitFate message sender network decision) := by
  obtain ⟨receiver, fate⟩ := decision
  rcases fits with ⟨live, arrival, rfl⟩ | ⟨down, rfl⟩
  · dsimp only at live
    constructor
    · intro id
      exact isLive_modifyNode network sender id fun _ => rfl
    · rfl
    · rfl
    · rfl
    · have queued := (EventQueue.push_perm network.queue arrival
        (.delivery sender receiver message)).map (·.2)
      simp only [List.filter_cons, live, if_true, List.filter_nil, List.map_cons, List.map_nil]
      exact queued.trans (List.perm_append_singleton _ _).symm
    · simp [commitFate, live]
    · simp [commitFate, live]
    · rfl
  · dsimp only at down
    constructor
    · exact fun _ => rfl
    · rfl
    · rfl
    · rfl
    · simp [commitFate, down, Network.events]
    · simp [commitFate, down]
    · simp [commitFate, down]
    · rfl

theorem fanned_commitFates (message : P.Message) (sender : Nat) {network : Network P}
    {decisions : List (Nat × Fate)} (fits : ∀ decision ∈ decisions, network.Fits decision) :
    Fanned message sender network (decisions.map (·.1))
      (decisions.foldl (commitFate message sender) network) := by
  induction decisions generalizing network with
  | nil => exact .of_same rfl rfl rfl rfl rfl rfl
  | cons decision rest induction =>
      have first := fanned_commitFate message sender (fits decision List.mem_cons_self)
      have later : ∀ other ∈ rest, (commitFate message sender network decision).Fits other := by
        intro other member
        unfold Fits
        rw [first.live]
        exact fits other (List.mem_cons_of_mem decision member)
      have second := induction later
      exact first.trans second

theorem fanned_sendToMany (unhindered : before.Unhindered)
    (live : before.isLive sender = true) {origin : Nat}
    (sent : before.sendToMany message origin sender receivers = (.ok (), after)) :
    Fanned message sender before receivers after := by
  unfold sendToMany at sent
  cases checked : before.checkSend origin sender receivers with
  | error error => simp [checked] at sent
  | ok _ =>
      cases decided : before.fates origin sender receivers before.rng with
      | error error => simp [checked, decided] at sent
      | ok found =>
          obtain ⟨decisions, rng⟩ := found
          simp only [checked, decided, Prod.mk.injEq, true_and] at sent
          subst sent
          obtain ⟨receiversDecided, -⟩ := fates_spec decided
          have drawn : Fanned message sender before [] { before with rng := rng } :=
            .of_same rfl rfl rfl rfl rfl rfl
          rw [← receiversDecided]
          exact drawn.trans
            (fanned_commitFates message sender (fits_of_fates unhindered live decided))

theorem fanned_sendStaggered {delay departure : Nat} (unhindered : before.Unhindered)
    (live : before.isLive sender = true)
    (sent : sendStaggered message sender delay departure receivers before = (.ok (), after)) :
    Fanned message sender before receivers after := by
  induction receivers generalizing departure before with
  | nil =>
      cases sent
      exact .of_same rfl rfl rfl rfl rfl rfl
  | cons receiver rest induction =>
      unfold sendStaggered at sent
      cases single : before.send message departure sender receiver with
      | mk outcome middle =>
          cases outcome with
          | error error => simp [single] at sent
          | ok _ =>
              simp only [single] at sent
              have first := fanned_sendToMany unhindered live single
              have second := induction (first.unhindered unhindered)
                (by rw [first.live, live]) sent
              exact first.trans second

theorem planFlood_eq_ok {network : Network P} {header : FloodHeader} {node : Nat}
    {source : Option Nat} {plan : Option FloodPlan}
    (planned : network.planFlood header node source = .ok plan) :
    (network.overlay.hasSeen header.messageId node = true ∧ plan = none) ∨
      (network.overlay.hasSeen header.messageId node = false ∧ ∃ departure,
        plan = some ⟨departure,
          (network.overlay.peers node).filter fun peer => some peer ≠ source⟩) := by
  unfold planFlood at planned
  cases found : network.node node with
  | error error => simp [found] at planned
  | ok record =>
      cases seen : network.overlay.hasSeen header.messageId node with
      | true =>
          simp only [found, seen, if_true, Except.ok.injEq] at planned
          exact .inl ⟨rfl, planned.symm⟩
      | false =>
          simp only [found, seen, Bool.false_eq_true, if_false] at planned
          refine .inr ⟨rfl, ?_⟩
          cases listed : network.overlay.peers? node with
          | none => simp [peers, listed] at planned
          | some peers =>
              simp only [Network.peers, listed] at planned
              split at planned
              · cases planned
              · split at planned
                · cases planned
                · split at planned
                  · cases planned
                  · rename_i departure _ _ _ _ _
                    cases planned
                    exact ⟨departure, by simp [Overlay.peers, listed]⟩

theorem listed_of_planFlood {network : Network P} {header : FloodHeader} {node : Nat}
    {source : Option Nat} {plan : FloodPlan}
    (planned : network.planFlood header node source = .ok (some plan)) :
    node < network.overlay.nodeCount := by
  unfold planFlood at planned
  split at planned
  · cases planned
  · split at planned
    · cases planned
    · split at planned
      · cases planned
      · rename_i peers found
        unfold Network.peers at found
        split at found
        · rename_i listed
          exact (List.getElem?_eq_some_iff.mp listed).1
        · cases found

/-- A forward does nothing at a node that has seen the flood. At another it marks the
node and sends to all its peers but the one that the message came from. -/
theorem forwardFlood_eq_ok {header : FloodHeader} {node : Nat} {source : Option Nat}
    {flag : Bool} (unhindered : before.Unhindered) (live : before.isLive node = true)
    (forwarded : before.forwardFlood message header node source = (.ok flag, after)) :
    (before.overlay.hasSeen header.messageId node = true ∧ after = before) ∨
      (before.overlay.hasSeen header.messageId node = false ∧ node < before.overlay.nodeCount ∧
        Fanned message node (before.markSeen header.messageId node)
          ((before.overlay.peers node).filter fun peer => some peer ≠ source) after) := by
  unfold forwardFlood at forwarded
  cases planned : before.planFlood header node source with
  | error error => simp [planned] at forwarded
  | ok plan =>
      rcases planFlood_eq_ok planned with ⟨seen, rfl⟩ | ⟨new, departure, rfl⟩
      · simp only [planned, Prod.mk.injEq] at forwarded
        exact .inl ⟨seen, forwarded.2.symm⟩
      · simp only [planned] at forwarded
        refine .inr ⟨new, listed_of_planFlood planned, ?_⟩
        have marked : (before.markSeen header.messageId node).Unhindered :=
          ⟨unhindered.whole, unhindered.patient⟩
        by_cases together : header.delayBetweenPeers = 0
        · rw [if_pos together] at forwarded
          split at forwarded
          · cases forwarded
          · rename_i sent
            cases forwarded
            exact fanned_sendToMany marked live sent
        · rw [if_neg together] at forwarded
          split at forwarded
          · cases forwarded
          · rename_i sent
            cases forwarded
            have drawn : Fanned message node (before.markSeen header.messageId node) []
                { before.markSeen header.messageId node with
                  rng := ((before.markSeen header.messageId node).rng.shuffle
                    ((before.overlay.peers node).filter fun peer => some peer ≠ source)).2 } :=
              .of_same rfl rfl rfl rfl rfl rfl
            have staggered := fanned_sendStaggered (drawn.unhindered marked) live sent
            exact (drawn.trans staggered).perm (Rng.shuffle_perm _ _)

end Network

end Flood

end Simnet
