import Mathlib.Algebra.BigOperators.Group.Finset.Basic
import Simnet.Proofs.Flood
import Simnet.Proofs.SeenLedger
import Simnet.Proofs.Slicing

namespace Simnet

/-! How far a flood gets. At any time some nodes have seen the flood. Each was reached
over a link from another one, and each of their live peers has seen the flood as well or
has a copy pending. When no copy is pending any more, the nodes that have seen it are
those that a path of live nodes joins to the origin, and every link between them was used
once in each direction but for the links over which the first copies came. -/

section FloodReach

open scoped List

variable {P : Protocol}

def floodBody (header : P.Message → FloodHeader) (message : P.Message)
    (sender receiver : Nat) : Body P Unit := do
  let _ ← ExceptT.mk (.perform (.receiveFlood message (header message) sender receiver))
  return ()

namespace Network

/-- A message can pass from one node to another: both are live, and they are linked. -/
def Passable (network : Network P) (first second : Nat) : Prop :=
  network.isLive first = true ∧ network.isLive second = true ∧
    second ∈ network.overlay.peers first

abbrev Joined (network : Network P) : Nat → Nat → Prop :=
  Relation.ReflTransGen network.Passable

def livePeers (network : Network P) (id : Nat) : Nat :=
  ((network.overlay.peers id).filter network.isLive).length

def downPeers (network : Network P) (id : Nat) : Nat :=
  ((network.overlay.peers id).filter fun peer => ! network.isLive peer).length

theorem Joined.live {network : Network P} {origin node : Nat}
    (joined : network.Joined origin node) (live : network.isLive origin = true) :
    network.isLive node = true := by
  cases joined with
  | refl => exact live
  | tail _ passable => exact passable.2.1

end Network

theorem exec_floodBody (header : P.Message → FloodHeader) (message : P.Message)
    (sender receiver : Nat) (run : Runner P) (network : Network P) :
    (floodBody header message sender receiver).run.exec run network =
      match network.receiveFlood message (header message) sender receiver with
      | (.error error, after) => some (.error error, after)
      | (.ok _, after) => some (.ok (), after) := by
  have opened : (floodBody header message sender receiver).run.exec run network =
      (Program.bind (.pure (network.receiveFlood message (header message) sender receiver).1)
        (ExceptT.bindCont fun _ => pure ())).exec run
          (network.receiveFlood message (header message) sender receiver).2 := rfl
  rw [opened]
  cases network.receiveFlood message (header message) sender receiver with
  | mk outcome after =>
      cases outcome with
      | error error => rfl
      | ok flag => rfl

/-- A flood under way from `origin`: the nodes of `reached` have seen it, and the books of
the network `base` in which it began are kept up to date. -/
structure Spread (base : Network P) (origin : Nat) (message : P.Message) (messageId : Nat)
    (reached : Finset Nat) (network : Network P) : Prop where
  unhindered : network.Unhindered
  live : ∀ id, network.isLive id = base.isLive id
  peers : ∀ id, network.overlay.peers id = base.overlay.peers id
  seen : ∀ id, network.overlay.hasSeen messageId id = true ↔ id ∈ reached
  began : origin ∈ reached
  joined : ∀ id ∈ reached, base.Joined origin id
  pending : ∀ event ∈ network.events, ∃ sender ∈ reached, ∃ receiver,
    event = .delivery sender receiver message ∧ base.Passable sender receiver
  closed : ∀ sender ∈ reached, ∀ receiver, base.Passable sender receiver →
    receiver ∈ reached ∨ ∃ other, .delivery other receiver message ∈ network.events
  grown : base.counters.messagesSent ≤ network.counters.messagesSent
  sent : network.counters.messagesSent + (reached.card - 1) =
    base.counters.messagesSent + ∑ id ∈ reached, base.livePeers id
  down : network.counters.droppedDown =
    base.counters.droppedDown + ∑ id ∈ reached, base.downPeers id
  delivered : network.counters.messagesDelivered + network.events.length +
      base.counters.messagesSent =
    base.counters.messagesDelivered + network.counters.messagesSent

namespace Spread

variable {base network after : Network P} {origin : Nat} {message : P.Message}
variable {messageId : Nat} {reached : Finset Nat}

theorem of_same (spread : Spread base origin message messageId reached network)
    (nodes : after.nodes = network.nodes) (overlay : after.overlay = network.overlay)
    (partition : after.partition = network.partition) (config : after.config = network.config)
    (queue : after.queue = network.queue) (counters : after.counters = network.counters) :
    Spread base origin message messageId reached after := by
  have events : after.events = network.events := by rw [Network.events, queue, Network.events]
  have live : ∀ id, after.isLive id = network.isLive id := by
    intro id
    rw [Network.isLive, Network.isLive, Network.node?, Network.node?, nodes]
  obtain ⟨whole, patient⟩ := spread.unhindered
  constructor
  · exact ⟨by rw [partition, whole], by rw [config, patient]⟩
  · intro id
    rw [live, spread.live]
  · rw [overlay]
    exact spread.peers
  · rw [overlay]
    exact spread.seen
  · exact spread.began
  · exact spread.joined
  · rw [events]
    exact spread.pending
  · rw [events]
    exact spread.closed
  · rw [counters]
    exact spread.grown
  · rw [counters]
    exact spread.sent
  · rw [counters]
    exact spread.down
  · rw [counters, events]
    exact spread.delivered

theorem start (unhindered : base.Unhindered) (vacant : base.events = [])
    (live : base.isLive origin = true)
    (fresh : ∀ id, base.overlay.hasSeen messageId id = false)
    (listed : origin < base.overlay.nodeCount)
    (fanned : Network.Fanned message origin (base.markSeen messageId origin)
      (base.overlay.peers origin) after) :
    Spread base origin message messageId {origin} after := by
  have events : after.events.Perm
      (((base.overlay.peers origin).filter base.isLive).map fun receiver =>
        .delivery origin receiver message) := by
    have events := fanned.events
    rw [show (base.markSeen messageId origin).events = [] from vacant, List.nil_append]
      at events
    exact events
  constructor
  · exact fanned.unhindered ⟨unhindered.whole, unhindered.patient⟩
  · exact fanned.live
  · intro id
    rw [fanned.overlay]
    rfl
  · intro id
    rw [fanned.overlay, Network.markSeen, Overlay.hasSeen_markSeen listed, fresh]
    simp
  · exact Finset.mem_singleton_self origin
  · intro id member
    rw [Finset.mem_singleton] at member
    subst member
    exact .refl
  · intro event member
    rw [events.mem_iff, List.mem_map] at member
    obtain ⟨receiver, toReceiver, rfl⟩ := member
    obtain ⟨linked, receiverLive⟩ := List.mem_filter.mp toReceiver
    exact ⟨origin, Finset.mem_singleton_self origin, receiver, rfl, live, receiverLive, linked⟩
  · intro sender member receiver passable
    rw [Finset.mem_singleton] at member
    subst member
    refine .inr ⟨sender, ?_⟩
    rw [events.mem_iff]
    exact List.mem_map_of_mem (List.mem_filter.mpr ⟨passable.2.2, passable.2.1⟩)
  · rw [fanned.sent]
    exact Nat.le_add_right _ _
  · rw [fanned.sent, Finset.card_singleton, Finset.sum_singleton]
    rfl
  · rw [fanned.down, Finset.sum_singleton]
    rfl
  · have count := events.length_eq
    rw [List.length_map] at count
    rw [fanned.delivered, fanned.sent, count]
    have sameLive : (base.markSeen messageId origin).isLive = base.isLive := rfl
    have sameCounters : (base.markSeen messageId origin).counters = base.counters := rfl
    rw [sameLive, sameCounters]
    omega

/-! A delivery takes one copy off the queue. At a node that has seen the flood that is
all, and any other node joins those that have. -/

structure Arrived (event : Event P) (before after : Network P) : Prop where
  live : ∀ id, after.isLive id = before.isLive id
  overlay : after.overlay = before.overlay
  partition : after.partition = before.partition
  config : after.config = before.config
  events : before.events = event :: after.events
  sent : after.counters.messagesSent = before.counters.messagesSent
  down : after.counters.droppedDown = before.counters.droppedDown
  delivered : after.counters.messagesDelivered = before.counters.messagesDelivered + 1

theorem arrived_of_popDue {queue : EventQueue (Event P)} {key : EventKey}
    {deadline sender receiver : Nat}
    (popped : network.queue.popDue deadline =
      some ((key, .delivery sender receiver message), queue)) :
    Arrived (.delivery sender receiver message) network
      ((network.arrive queue key.time).countEvent (.delivery sender receiver message)
        (.acted none)) where
  live id :=
    Network.isLive_modifyNode (network.arrive queue key.time) receiver id fun _ => rfl
  overlay := rfl
  partition := rfl
  config := rfl
  events := by
    obtain ⟨items, -, -⟩ := EventQueue.popDue_eq_some_iff.mp popped
    rw [Network.events, Network.events, Network.queue_countEvent, items]
    rfl
  sent := rfl
  down := rfl
  delivered := rfl

section Delivery

variable {middle : Network P} {sender receiver : Nat}

theorem duplicate (spread : Spread base origin message messageId reached network)
    (arrived : Arrived (.delivery sender receiver message) network middle)
    (old : receiver ∈ reached) : Spread base origin message messageId reached middle := by
  obtain ⟨whole, patient⟩ := spread.unhindered
  constructor
  · exact ⟨by rw [arrived.partition, whole], by rw [arrived.config, patient]⟩
  · intro id
    rw [arrived.live, spread.live]
  · rw [arrived.overlay]
    exact spread.peers
  · rw [arrived.overlay]
    exact spread.seen
  · exact spread.began
  · exact spread.joined
  · intro event member
    refine spread.pending event ?_
    rw [arrived.events]
    exact List.mem_cons_of_mem _ member
  · intro node member peer passable
    rcases spread.closed node member peer passable with seen | ⟨other, copy⟩
    · exact .inl seen
    · rw [arrived.events] at copy
      rcases List.mem_cons.mp copy with same | later
      · cases same
        exact .inl old
      · exact .inr ⟨other, later⟩
  · rw [arrived.sent]
    exact spread.grown
  · rw [arrived.sent]
    exact spread.sent
  · rw [arrived.down]
    exact spread.down
  · have delivered := spread.delivered
    rw [arrived.events, List.length_cons] at delivered
    rw [arrived.delivered, arrived.sent]
    omega

/-- One peer fewer is served, the live one that the copy came from. -/
theorem length_filter_others {peers : List Nat} {live : Nat → Bool} (distinct : peers.Nodup)
    (linked : sender ∈ peers) (senderLive : live sender = true) :
    ((peers.filter fun peer => some peer ≠ some sender).filter live).length + 1 =
      (peers.filter live).length := by
  have once := distinct.filter live
  have member : sender ∈ peers.filter live := List.mem_filter.mpr ⟨linked, senderLive⟩
  have others : (peers.filter fun peer => some peer ≠ some sender).filter live =
      (peers.filter live).erase sender := by
    rw [once.erase_eq_filter, List.filter_filter, List.filter_filter]
    apply List.filter_congr
    intro peer _
    simp [Bool.and_comm, bne, Bool.beq_eq_decide_eq]
  have positive : 0 < (peers.filter live).length := List.length_pos_of_mem member
  rw [others, List.length_erase_of_mem member]
  omega

theorem filter_others_down {peers : List Nat} {live : Nat → Bool}
    (senderLive : live sender = true) :
    (peers.filter fun peer => some peer ≠ some sender).filter (fun peer => ! live peer) =
      peers.filter fun peer => ! live peer := by
  rw [List.filter_filter]
  apply List.filter_congr
  intro peer _
  by_cases same : peer = sender
  · subst same
    simp [senderLive]
  · simp [same]

theorem passable_of_arrived (spread : Spread base origin message messageId reached network)
    (arrived : Arrived (.delivery sender receiver message) network middle) :
    sender ∈ reached ∧ base.Passable sender receiver := by
  have member : .delivery sender receiver message ∈ network.events := by
    rw [arrived.events]
    exact List.mem_cons_self
  obtain ⟨node, known, peer, same, passable⟩ := spread.pending _ member
  cases same
  exact ⟨known, passable⟩

theorem visit (wired : base.Wired)
    (spread : Spread base origin message messageId reached network)
    (arrived : Arrived (.delivery sender receiver message) network middle)
    (new : receiver ∉ reached) (listed : receiver < middle.overlay.nodeCount)
    (fanned : Network.Fanned message receiver (middle.markSeen messageId receiver)
      ((middle.overlay.peers receiver).filter fun peer => some peer ≠ some sender) after) :
    Spread base origin message messageId (insert receiver reached) after := by
  obtain ⟨known, senderLive, receiverLive, linked⟩ := spread.passable_of_arrived arrived
  have live : (middle.markSeen messageId receiver).isLive = base.isLive := by
    funext id
    exact (arrived.live id).trans (spread.live id)
  have back : sender ∈ base.overlay.peers receiver := wired.sound.symmetric linked
  rw [arrived.overlay, spread.peers] at fanned
  have events : after.events.Perm (middle.events ++ _) := fanned.events
  have sent : after.counters.messagesSent = middle.counters.messagesSent + _ := fanned.sent
  have down : after.counters.droppedDown = middle.counters.droppedDown + _ := fanned.down
  have delivered : after.counters.messagesDelivered = middle.counters.messagesDelivered :=
    fanned.delivered
  have copies := length_filter_others (wired.sound.distinct receiver) back senderLive
  rw [live] at events sent down
  rw [filter_others_down senderLive] at down
  obtain ⟨whole, patient⟩ := spread.unhindered
  constructor
  · exact fanned.unhindered
      ⟨arrived.partition.trans whole, (congrArg _ arrived.config).trans patient⟩
  · intro id
    rw [fanned.live, live]
  · intro id
    rw [fanned.overlay, ← spread.peers, ← arrived.overlay]
    rfl
  · intro id
    rw [fanned.overlay, Network.markSeen, Overlay.hasSeen_markSeen listed, Finset.mem_insert,
      arrived.overlay, spread.seen, eq_self, true_and]
  · exact Finset.mem_insert_of_mem spread.began
  · intro id member
    rcases Finset.mem_insert.mp member with rfl | old
    · exact (spread.joined sender known).tail ⟨senderLive, receiverLive, linked⟩
    · exact spread.joined id old
  · intro event member
    rw [events.mem_iff] at member
    rcases List.mem_append.mp member with old | added
    · have wasPending : event ∈ network.events := by
        rw [arrived.events]
        exact List.mem_cons_of_mem _ old
      obtain ⟨node, isReached, peer, same, passes⟩ := spread.pending event wasPending
      exact ⟨node, Finset.mem_insert_of_mem isReached, peer, same, passes⟩
    · obtain ⟨peer, toPeer, rfl⟩ := List.mem_map.mp added
      obtain ⟨isOther, peerLive⟩ := List.mem_filter.mp toPeer
      obtain ⟨isPeer, -⟩ := List.mem_filter.mp isOther
      exact ⟨receiver, Finset.mem_insert_self receiver reached, peer, rfl, receiverLive,
        peerLive, isPeer⟩
  · intro node member peer passes
    rcases Finset.mem_insert.mp member with rfl | old
    · -- The one peer that gets no copy is the sender, and it has seen the flood.
      by_cases toSender : peer = sender
      · subst toSender
        exact .inl (Finset.mem_insert_of_mem known)
      · have isOther : peer ∈ (base.overlay.peers node).filter
            fun peer => some peer ≠ some sender :=
          List.mem_filter.mpr ⟨passes.2.2, by simpa using toSender⟩
        refine .inr ⟨node, ?_⟩
        rw [events.mem_iff]
        exact List.mem_append_right _
          (List.mem_map_of_mem (List.mem_filter.mpr ⟨isOther, passes.2.1⟩))
    · rcases spread.closed node old peer passes with seen | ⟨other, copy⟩
      · exact .inl (Finset.mem_insert_of_mem seen)
      · rw [arrived.events] at copy
        rcases List.mem_cons.mp copy with same | later
        · cases same
          exact .inl (Finset.mem_insert_self receiver reached)
        · refine .inr ⟨other, ?_⟩
          rw [events.mem_iff]
          exact List.mem_append_left _ later
  · rw [sent, arrived.sent]
    exact Nat.le_trans spread.grown (Nat.le_add_right _ _)
  · -- One copy fewer than the node has live peers, and one node more to account for it.
    have soFar := spread.sent
    have nonempty : 0 < reached.card := Finset.card_pos.mpr ⟨origin, spread.began⟩
    rw [Finset.card_insert_of_notMem new, Finset.sum_insert new, sent, arrived.sent,
      Network.livePeers]
    omega
  · have soFar := spread.down
    rw [Finset.sum_insert new, down, arrived.down, Network.downPeers]
    omega
  · have soFar := spread.delivered
    have count := events.length_eq
    rw [List.length_append, List.length_map] at count
    rw [arrived.events, List.length_cons] at soFar
    rw [delivered, arrived.delivered, sent, arrived.sent, count]
    omega

end Delivery

/-! A whole run -/

variable {behaviour : Behaviour P} {header : P.Message → FloodHeader}

theorem node_of_isLive {id : Nat} (live : network.isLive id = true) :
    ∃ node, network.node? id = some node ∧ node.info.down = false := by
  unfold Network.isLive at live
  cases found : network.node? id with
  | none => simp [found] at live
  | some node => exact ⟨node, rfl, by simpa [found] using live⟩

theorem deliver_of_isLive {receiver : Nat} (live : network.isLive receiver = true)
    (run : Runner P) (sender : Nat) (message : P.Message) :
    network.deliver behaviour run sender receiver message =
      (behaviour.deliver message sender receiver).run.exec run
        (network.countEvent (.delivery sender receiver message) (.acted none)) := by
  obtain ⟨node, found, up⟩ := node_of_isLive live
  simp only [Network.deliver, found, up, Bool.false_eq_true, if_false]
  rfl

theorem execute (handles : behaviour.deliver = floodBody header) (wired : base.Wired)
    (spread : Spread base origin message (header message).messageId reached network)
    {run : Runner P} {queue : EventQueue (Event P)} {key : EventKey} {event : Event P}
    {deadline : Nat} (popped : network.queue.popDue deadline = some ((key, event), queue))
    (executed : { network with queue := queue }.execute behaviour run key event =
      some (.ok (), after)) :
    ∃ larger, Spread base origin message (header message).messageId larger after := by
  have member : event ∈ network.events :=
    List.mem_map_of_mem (EventQueue.mem_of_popDue popped)
  obtain ⟨sender, -, receiver, rfl, -, receiverLive, -⟩ := spread.pending event member
  have arrived := arrived_of_popDue popped
  have live : (network.arrive queue key.time).isLive receiver = true :=
    (spread.live receiver).trans receiverLive
  have delivered : (network.arrive queue key.time).deliver behaviour run sender receiver
      message = some (.ok (), after) := by
    simp only [Network.execute, Network.dispatch] at executed
    split at executed
    · cases executed
    · rename_i finished
      cases executed
      exact finished
    · cases executed
  rw [deliver_of_isLive live, handles, exec_floodBody] at delivered
  split at delivered
  · cases delivered
  · rename_i flag last forwarded
    cases delivered
    have unhindered : ((network.arrive queue key.time).countEvent
        (.delivery sender receiver message) (.acted none)).Unhindered :=
      ⟨spread.unhindered.whole, spread.unhindered.patient⟩
    have stillLive := (arrived.live receiver).trans ((spread.live receiver).trans receiverLive)
    rcases Network.forwardFlood_eq_ok unhindered stillLive forwarded with
      ⟨seen, rfl⟩ | ⟨unseen, listed, fanned⟩
    · rw [arrived.overlay] at seen
      exact ⟨reached, spread.duplicate arrived ((spread.seen receiver).mp seen)⟩
    · have new : receiver ∉ reached := by
        intro old
        rw [arrived.overlay, (spread.seen receiver).mpr old] at unseen
        cases unseen
      exact ⟨insert receiver reached, spread.visit wired arrived new listed fanned⟩

theorem drain (handles : behaviour.deliver = floodBody header) (wired : base.Wired)
    (spread : Spread base origin message (header message).messageId reached network)
    {fuel deadline : Nat}
    (drained : Network.drain behaviour fuel deadline network = some (.ok (), after)) :
    ∃ larger, Spread base origin message (header message).messageId larger after := by
  induction fuel generalizing network reached with
  | zero => cases drained
  | succ fuel induction =>
      rw [Network.drain] at drained
      cases popped : network.queue.popDue deadline with
      | none =>
          simp only [popped] at drained
          cases drained
          exact ⟨reached, spread.of_same rfl rfl rfl rfl rfl rfl⟩
      | some taken =>
          obtain ⟨⟨key, event⟩, queue⟩ := taken
          simp only [popped] at drained
          split at drained
          · cases drained
          · cases drained
          · rename_i middle executed
            obtain ⟨larger, later⟩ := spread.execute handles wired popped executed
            exact induction later drained

theorem runs (handles : behaviour.deliver = floodBody header) (wired : base.Wired)
    (spread : Spread base origin message (header message).messageId reached network)
    {deadline : Nat} (ran : network.Runs behaviour deadline (.ok (), after)) :
    ∃ larger, Spread base origin message (header message).messageId larger after := by
  cases starts : network.start deadline with
  | error error => cases (Network.runs_of_refused starts).mp ran
  | ok started =>
      obtain ⟨fuel, drained⟩ := (Network.runs_of_started starts).mp ran
      obtain ⟨-, -, rfl⟩ := Network.start_eq_ok starts
      have begun : Spread base origin message (header message).messageId reached
          { network with started := true } := spread.of_same rfl rfl rfl rfl rfl rfl
      exact begun.drain handles wired drained

theorem calls (handles : behaviour.deliver = floodBody header) (wired : base.Wired)
    (spread : Spread base origin message (header message).messageId reached network)
    {slices : List Slice}
    (ran : (Slice.calls slices).Ends behaviour network (.ok (), after)) :
    ∃ larger, Spread base origin message (header message).messageId larger after := by
  induction slices generalizing network reached with
  | nil =>
      cases Program.ends_pure_iff.mp ran
      exact ⟨reached, spread⟩
  | cons slice rest induction =>
      obtain ⟨early, middle, late, first, second, both⟩ := Slice.ends_calls_cons_iff.mp ran
      cases early with
      | error error => cases both
      | ok _ =>
          cases both
          obtain ⟨larger, later⟩ :
              ∃ larger, Spread base origin message (header message).messageId larger middle := by
            obtain ⟨fuel, executed⟩ := first
            rw [Slice.exec_call] at executed
            cases reaches : slice.deadline network with
            | error error =>
                rw [reaches] at executed
                cases executed
            | ok deadline =>
                rw [reaches] at executed
                exact spread.runs handles wired ⟨fuel, executed⟩
          exact induction later second

theorem reached_iff (spread : Spread base origin message messageId reached network)
    (vacant : network.events = []) (id : Nat) : id ∈ reached ↔ base.Joined origin id := by
  constructor
  · exact spread.joined id
  · intro path
    induction path with
    | refl => exact spread.began
    | tail _ passable known =>
        rcases spread.closed _ known _ passable with seen | ⟨other, copy⟩
        · exact seen
        · rw [vacant] at copy
          cases copy

end Spread

/-- Once a flood has come to rest, those that have seen it are the nodes that a path of live
nodes joins to its origin, and all copies that they passed on were delivered. -/
theorem Network.flood_reaches {α : Type} {behaviour : Behaviour P}
    {header : P.Message → FloodHeader} (handles : behaviour.deliver = floodBody header)
    {config : NetworkConfig} {latency : Latency} {genesis : P.Payload} {life : Program P α}
    {fuel : Nat} {answer : α} {network flooded final : Network P}
    (lived : life.exec (Network.runUntil behaviour fuel) (.new config latency genesis) =
      some (answer, network))
    (vacant : network.queue.items = []) (whole : network.partition = none)
    (patient : network.config.discardAfter = none) {origin : Nat}
    (live : network.isLive origin = true) {message : P.Message}
    (fresh : ∀ id, network.overlay.hasSeen (header message).messageId id = false)
    (floods : network.flood message (header message) origin = (.ok (), flooded))
    {slices : List Slice}
    (ran : (Slice.calls slices).Ends behaviour flooded (.ok (), final))
    (quiet : final.queue.items = []) :
    ∃ (reached : Finset Nat) (copies : Nat),
      (∀ id, id ∈ reached ↔ network.Joined origin id) ∧
      (∀ id, final.overlay.hasSeen (header message).messageId id = true ↔ id ∈ reached) ∧
      copies + (reached.card - 1) = ∑ id ∈ reached, network.livePeers id ∧
      final.counters.messagesSent = network.counters.messagesSent + copies ∧
      final.counters.messagesDelivered = network.counters.messagesDelivered + copies ∧
      final.counters.droppedDown =
        network.counters.droppedDown + ∑ id ∈ reached, network.downPeers id := by
  have wired := Program.wired_of_exec (Network.wired_new config latency genesis) lived
  have noEvents : network.events = [] := by rw [Network.events, vacant, List.map_nil]
  have begins : ∃ reached,
      Spread network origin message (header message).messageId reached flooded := by
    unfold Network.flood at floods
    split at floods
    · cases floods
    · rename_i forwarded
      cases floods
      rcases Network.forwardFlood_eq_ok ⟨whole, patient⟩ live forwarded with
        ⟨seen, -⟩ | ⟨-, listed, fanned⟩
      · rw [fresh] at seen
        cases seen
      · have everyone : ((network.overlay.peers origin).filter
            fun peer => some peer ≠ none) = network.overlay.peers origin := by simp
        rw [everyone] at fanned
        exact ⟨{origin}, .start ⟨whole, patient⟩ noEvents live fresh listed fanned⟩
  obtain ⟨first, spread⟩ := begins
  obtain ⟨reached, last⟩ := spread.calls handles wired ran
  have done : final.events = [] := by rw [Network.events, quiet, List.map_nil]
  have sent := last.sent
  have delivered := last.delivered
  rw [done, List.length_nil] at delivered
  have grown := last.grown
  refine ⟨reached, final.counters.messagesSent - network.counters.messagesSent,
    last.reached_iff done, last.seen, ?_, ?_, ?_, last.down⟩
  · omega
  · omega
  · omega

abbrev gossip : Protocol where
  State := Unit
  Message := FloodHeader
  Task := Unit
  Payload := Unit
  digest _ _ := 0
  size _ := 1
  retry _ := ()
  forkChoice := BlockTree.longest

namespace gossip

def behaviour : Behaviour gossip where
  deliver := floodBody fun header => header
  fire _ _ := ExceptT.mk (.pure (.ok ()))

def build : Program gossip (Except Error Unit) := do
  let _ ← Program.perform (.addNode (.new ⟨0, 0, none⟩ false) ())
  let _ ← Program.perform (.addNode (.new ⟨3, 4, none⟩ false) ())
  let _ ← Program.perform (.addNode (.new ⟨5, 6, none⟩ false) ())
  let _ ← Program.perform (.addNode (.new ⟨7, 8, none⟩ false) ())
  let _ ← Program.perform (.createLink 0 1)
  let _ ← Program.perform (.createLink 1 2)
  let _ ← Program.perform (.createLink 2 0)
  let _ ← Program.perform (.createLink 2 3)
  Program.perform (.setDown 3 true)

def built : Network gossip :=
  stateAfter (.new {} (LatencyModel.fixed 2).latency ())
    (build.record (Network.recordRun behaviour 0)
      (.new {} (LatencyModel.fixed 2).latency ())).history

def flooded : Network gossip :=
  (built.flood ⟨7, 1, 0⟩ ⟨7, 1, 0⟩ 0).2

end gossip

theorem gossip_reaches :
    ∃ (final : Network gossip) (reached : Finset Nat),
      (Slice.calls [.upTo 4, .milliseconds 6]).Ends gossip.behaviour gossip.flooded
        (.ok (), final) ∧
      (∀ id, id ∈ reached ↔ gossip.built.Joined 0 id) ∧
      (∀ id, final.overlay.hasSeen 7 id = true ↔ id ∈ reached) ∧
      4 + (reached.card - 1) = ∑ id ∈ reached, gossip.built.livePeers id ∧
      1 = ∑ id ∈ reached, gossip.built.downPeers id := by
  have lived : gossip.build.exec (Network.runUntil gossip.behaviour 0)
      (.new {} (LatencyModel.fixed 2).latency ()) = some (.ok (), gossip.built) := rfl
  have live : gossip.built.isLive 0 = true := rfl
  have floods : gossip.built.flood ⟨7, 1, 0⟩ ⟨7, 1, 0⟩ 0 = (.ok (), gossip.flooded) := rfl
  obtain ⟨final, ran, quiet, four, one⟩ : ∃ final : Network gossip,
      (Slice.calls [.upTo 4, .milliseconds 6]).Ends gossip.behaviour gossip.flooded
        (.ok (), final) ∧
      final.queue.items = [] ∧ final.counters.messagesSent = 4 ∧
        final.counters.droppedDown = 1 := ⟨_, ⟨9, rfl⟩, rfl, rfl, rfl⟩
  obtain ⟨reached, copies, joined, seen, passed, sent, -, down⟩ :=
    Network.flood_reaches rfl lived rfl rfl rfl live (fun _ => rfl) floods ran quiet
  have nothingSent : gossip.built.counters.messagesSent = 0 := rfl
  have nothingDown : gossip.built.counters.droppedDown = 0 := rfl
  rw [four, nothingSent, Nat.zero_add] at sent
  rw [one, nothingDown, Nat.zero_add] at down
  subst sent
  exact ⟨final, reached, ran, joined, seen, passed, down⟩

end FloodReach

end Simnet
