import Mathlib.Algebra.BigOperators.Fin
import Simnet.Proofs.Flow

namespace Simnet

/-! Conservation of messages and bytes. A message is counted when it is sent and when
its delivery is executed, in different functions and possibly in the middle of a run
that is aborted later. What ties the counters together is the queue: the messages sent
so far are those delivered, those lost at a receiver that was down, and those pending. -/

section Conservation

open scoped List

variable {P : Protocol}

namespace Network

def underway (network : Network P) : List (Parcel P) :=
  parcels network.queue.items

def total (network : Network P) (count : NodeInfo → Nat) : Nat :=
  (network.nodes.map fun node => count node.info).foldr (· + ·) 0

/-- The queue is in order, and its messages are between nodes of the network. -/
structure Posted (network : Network P) : Prop where
  ordered : network.queue.WellFormed
  known : ∀ parcel ∈ network.underway,
    parcel.sender < network.nodeCount ∧ parcel.receiver < network.nodeCount

theorem posted_new (config : NetworkConfig) (latency : Latency) (genesis : P.Payload) :
    (new config latency genesis : Network P).Posted where
  ordered := EventQueue.wellFormed_empty
  known := by
    intro parcel member
    cases member

/-! The reaction to a delivery and the counters go together. -/

theorem reaction_delivery (behaviour : Behaviour P) {network : Network P} (time sender : Nat)
    {receiver : Nat} (message : P.Message) (known : receiver < network.nodeCount) :
    network.reaction behaviour time (.delivery sender receiver message) = .dropped ∨
      network.reaction behaviour time (.delivery sender receiver message) =
        .acted none := by
  cases found : network.node? receiver with
  | none =>
      have unknown := node?_eq_none_iff.mp found
      omega
  | some node =>
      simp only [reaction, found]
      cases node.info.down with
      | true => exact .inl rfl
      | false => exact .inr rfl

theorem books_countEvent (behaviour : Behaviour P) (network : Network P) (time : Nat)
    {event : Event P} (known : ∀ parcel ∈ event.parcel?, parcel.receiver < network.nodeCount)
    {reaction : Reaction} (reacts : reaction = network.reaction behaviour time event) :
    event.parcel?.toList = event.delivered reaction ++ event.lost reaction ∧
      Booked network (network.countEvent event reaction) []
        (event.delivered reaction) (event.lost reaction) ∧
      Billed network (network.countEvent event reaction) [] (event.delivered reaction) := by
  cases event with
  | task record =>
      -- No message is involved, whatever becomes of the task.
      cases reaction with
      | refused _ | dropped | retired | skipped _ | acted _ =>
          exact ⟨rfl, ⟨rfl, rfl, rfl⟩, .of_nodes rfl⟩
  | delivery sender receiver message =>
      have receiverKnown : receiver < network.nodeCount := known _ rfl
      rcases reaction_delivery behaviour time sender message receiverKnown with
        dropped | acted
      · rw [reacts, dropped]
        exact ⟨rfl, ⟨rfl, rfl, rfl⟩, .of_nodes rfl⟩
      · rw [reacts, acted]
        exact ⟨rfl, ⟨rfl, rfl, rfl⟩,
          (billed_countReceived network message receiverKnown).of_same_nodes rfl⟩

end Network

/-- What the moments of a stretch of a life did to the messages: all that were underway
or were sent have been delivered or lost or are underway, and the counters say so. -/
structure Ledger (start : Network P) (past : List (Moment P)) (stop : Network P) :
    Prop where
  ordered : stop.queue.WellFormed
  growth : start.nodeCount ≤ stop.nodeCount
  known : ∀ parcel ∈ sent past,
    parcel.sender < stop.nodeCount ∧ parcel.receiver < stop.nodeCount
  settled : (start.underway ++ sent past).Perm (delivered past ++ lost past ++ stop.underway)
  booked : Network.Booked start stop (sent past) (delivered past) (lost past)
  billed : (∀ moment ∈ past, moment.KeepsCounts) →
    Network.Billed start stop (sent past) (delivered past)

namespace Ledger

variable {start middle stop : Network P} {past later : List (Moment P)}

theorem nil (posted : start.Posted) : Ledger start [] start where
  ordered := posted.ordered
  growth := Nat.le_refl _
  known := by simp [sent]
  settled := by simp [sent, delivered, lost]
  booked := .refl start
  billed _ := .refl start

theorem posted (ledger : Ledger start past stop) (posted : start.Posted) : stop.Posted where
  ordered := ledger.ordered
  known := by
    intro parcel member
    have accounted : parcel ∈ start.underway ++ sent past :=
      ledger.settled.mem_iff.mpr (List.mem_append_right _ member)
    rcases List.mem_append.mp accounted with early | late
    · have known := posted.known parcel early
      have growth := ledger.growth
      omega
    · exact ledger.known parcel late

theorem trans (first : Ledger start past middle) (second : Ledger middle later stop) :
    Ledger start (past ++ later) stop where
  ordered := second.ordered
  growth := Nat.le_trans first.growth second.growth
  known := by
    intro parcel member
    rw [sent_append] at member
    rcases List.mem_append.mp member with early | late
    · have known := first.known parcel early
      have growth := second.growth
      omega
    · exact second.known parcel late
  settled := by
    rw [sent_append, delivered_append, lost_append]
    calc start.underway ++ (sent past ++ sent later)
      _ = (start.underway ++ sent past) ++ sent later := (List.append_assoc ..).symm
      _ ~ (delivered past ++ lost past ++ middle.underway) ++ sent later :=
          first.settled.append_right _
      _ = (delivered past ++ lost past) ++ (middle.underway ++ sent later) :=
          List.append_assoc ..
      _ ~ (delivered past ++ lost past) ++
            (delivered later ++ lost later ++ stop.underway) :=
          second.settled.append_left _
      _ = delivered past ++ ((lost past ++ delivered later) ++
            (lost later ++ stop.underway)) := by simp only [List.append_assoc]
      _ ~ delivered past ++ ((delivered later ++ lost past) ++
            (lost later ++ stop.underway)) :=
          (List.perm_append_comm.append_right _).append_left _
      _ = (delivered past ++ delivered later) ++ (lost past ++ lost later) ++
            stop.underway := by simp only [List.append_assoc]
  booked := by
    rw [sent_append, delivered_append, lost_append]
    exact first.booked.trans second.booked
  billed keeps := by
    rw [sent_append, delivered_append]
    refine (first.billed ?_).trans (second.billed ?_)
    · exact fun moment member => keeps moment (List.mem_append_left _ member)
    · exact fun moment member => keeps moment (List.mem_append_right _ member)

end Ledger

variable {behaviour : Behaviour P} {good : Op P → Prop}

/-! One moment -/

theorem ledger_took {before : Network P} {queue : EventQueue (Event P)} {key : EventKey}
    {event : Event P} {deadline : Nat} (posted : before.Posted)
    (popped : before.queue.popDue deadline = some ((key, event), queue))
    {reaction : Reaction}
    (reacts : reaction = (before.arrive queue key.time).reaction behaviour key.time event) :
    Ledger before
      [⟨before, .took key event reaction,
        (before.arrive queue key.time).countEvent event reaction⟩]
      ((before.arrive queue key.time).countEvent event reaction) := by
  obtain ⟨ordered, -⟩ := posted.ordered.popDue popped
  obtain ⟨items, -, -⟩ := EventQueue.popDue_eq_some_iff.mp popped
  have carried : before.underway = event.parcel?.toList ++ parcels queue.items := by
    rw [Network.underway, items]
    cases event <;> rfl
  have known : ∀ parcel ∈ event.parcel?, parcel.receiver < before.nodeCount := by
    intro parcel member
    refine (posted.known parcel ?_).2
    rw [carried]
    exact List.mem_append_left _ (Option.mem_toList.mpr member)
  obtain ⟨share, booked, billed⟩ :=
    Network.books_countEvent behaviour (before.arrive queue key.time) key.time known reacts
  have nothing : ∀ moment : Moment P, moment.before = before →
      moment.after.queue = queue → moment.sent = [] := by
    intro moment isBefore isAfter
    rw [Moment.sent, Moment.enqueued, isBefore, isAfter,
      posted.ordered.since_popDue popped, parcels_nil]
  have silent : sent [(⟨before, .took key event reaction,
      (before.arrive queue key.time).countEvent event reaction⟩ : Moment P)] = [] := by
    rw [sent_singleton]
    exact nothing _ rfl (Network.queue_countEvent ..)
  constructor
  · rw [Network.queue_countEvent]
    exact ordered
  · rw [Network.nodeCount_countEvent]
    exact Nat.le_refl _
  · rw [silent]
    simp
  · rw [silent, delivered_singleton, lost_singleton, List.append_nil, carried, share,
      Network.underway, Network.queue_countEvent]
    exact .refl _
  · rw [silent, delivered_singleton, lost_singleton]
    have arrived : Network.Booked before (before.arrive queue key.time) [] [] [] :=
      .of_counters rfl
    have counted := arrived.trans booked
    exact counted
  · intro _
    rw [silent, delivered_singleton]
    have arrived : Network.Billed before (before.arrive queue key.time) [] [] :=
      .of_nodes rfl
    have counted := arrived.trans billed
    exact counted

theorem Network.Intake.ledger {moment : Moment P} {pushes : List (Nat × Event P)}
    (intake : Intake moment.KeepsCounts moment.before moment.after pushes)
    (nothing : moment.delivered = [] ∧ moment.lost = [])
    (ordered : moment.before.queue.WellFormed) :
    Ledger moment.before [moment] moment.after := by
  have came := ordered.since_pushAll pushes
  rw [← intake.queue] at came
  have same : (parcels pushes).Perm moment.sent := by
    calc parcels pushes
      _ = parcels (EventQueue.numberFrom moment.before.queue.enqueued pushes) :=
          (parcels_numberFrom _ pushes).symm
      _ ~ moment.sent := (parcels_perm came).symm
  constructor
  · rw [intake.queue]
    exact ordered.pushAll pushes
  · exact intake.growth
  · intro parcel member
    rw [sent_singleton] at member
    exact intake.known parcel (same.mem_iff.mpr member)
  · rw [sent_singleton, delivered_singleton, lost_singleton, nothing.1, nothing.2]
    calc moment.before.underway ++ moment.sent
      _ ~ moment.before.underway ++ parcels pushes := (same.append_left _).symm
      _ = parcels (moment.before.queue.items ++
            EventQueue.numberFrom moment.before.queue.enqueued pushes) := by
          rw [parcels_append, parcels_numberFrom, underway]
      _ ~ moment.after.underway := by
          rw [underway, intake.queue]
          exact parcels_perm (EventQueue.pushAll_perm _ pushes).symm
  · rw [sent_singleton, delivered_singleton, lost_singleton, nothing.1, nothing.2]
    exact intake.booked.perm_sent same
  · intro keeps
    rw [sent_singleton, delivered_singleton, nothing.1]
    exact (intake.billed (keeps moment (List.mem_singleton_self moment))).perm_sent same

theorem Moment.Lawful.ledger {moment : Moment P} (lawful : moment.Lawful behaviour good)
    (posted : moment.before.Posted) : Ledger moment.before [moment] moment.after := by
  rcases lawful.takes_or_brings with
    ⟨before, queue, key, event, deadline, popped, rfl⟩ | ⟨⟨-, nothing⟩, pushes, intake⟩
  · exact ledger_took posted popped rfl
  · exact intake.ledger nothing posted.ordered

theorem Passes.ledger {start stop : Network P} {past : List (Moment P)}
    (passes : Passes (Moment.Lawful behaviour good) start past stop)
    (posted : start.Posted) : Ledger start past stop := by
  refine passes.preserves (motive := Ledger start) (.nil posted) ?_
  intro earlier moment lawful ledger
  exact ledger.trans (lawful.ledger (ledger.posted posted))

/-! All nodes together -/

open Finset in
theorem total_eq_sum (network : Network P) (count : NodeInfo → Nat) :
    network.total count = ∑ id ∈ range network.nodeCount, network.tally count id := by
  unfold Network.total Network.tally Network.node? Network.nodeCount
  induction network.nodes with
  | nil => rfl
  | cons node rest induction =>
      rw [List.length_cons, sum_range_succ', List.map_cons, List.foldr_cons, induction,
        Nat.add_comm]
      rfl

open Finset in
theorem sum_shares {measure : List (Parcel P) → Nat} {weight : Parcel P → Nat}
    (none : measure [] = 0)
    (more : ∀ parcel rest, measure (parcel :: rest) = weight parcel + measure rest)
    (key : Parcel P → Nat) {bound : Nat} {messages : List (Parcel P)}
    (known : ∀ parcel ∈ messages, key parcel < bound) :
    ∑ id ∈ range bound, measure (messages.filter fun parcel => key parcel = id) =
      measure messages := by
  induction messages with
  | nil => simp [none]
  | cons parcel rest induction =>
      have share : ∀ id,
          measure ((parcel :: rest).filter fun parcel => key parcel = id) =
            (if key parcel = id then weight parcel else 0) +
              measure (rest.filter fun parcel => key parcel = id) := by
        intro id
        by_cases same : key parcel = id
        · rw [List.filter_cons_of_pos (by simpa using same), more, if_pos same]
        · rw [List.filter_cons_of_neg (by simpa using same), if_neg same, Nat.zero_add]
      have inside : key parcel ∈ range bound :=
        mem_range.mpr (known parcel List.mem_cons_self)
      have later := induction fun other member =>
        known other (List.mem_cons_of_mem parcel member)
      simp only [share, sum_add_distrib, sum_ite_eq, inside, if_true, later, more]

theorem length_shares (key : Parcel P → Nat) {bound : Nat} {messages : List (Parcel P)}
    (known : ∀ parcel ∈ messages, key parcel < bound) :
    ∑ id ∈ Finset.range bound, (messages.filter fun parcel => key parcel = id).length =
      messages.length :=
  sum_shares rfl (fun _ rest => by rw [List.length_cons, Nat.add_comm]) key known

theorem bytes_shares (key : Parcel P → Nat) {bound : Nat} {messages : List (Parcel P)}
    (known : ∀ parcel ∈ messages, key parcel < bound) :
    ∑ id ∈ Finset.range bound, bytes (messages.filter fun parcel => key parcel = id) =
      bytes messages :=
  sum_shares rfl (fun _ _ => rfl) key known

/-! The balance of a whole life -/

structure Balance (network : Network P) : Prop where
  messages : network.counters.messagesSent =
    network.counters.messagesDelivered + network.counters.droppedAtDelivery +
      network.underway.length
  dropped : network.counters.dropped ≤
    network.counters.messagesSent + network.counters.droppedAtSend

structure NodeBalance (past : List (Moment P)) (network : Network P) : Prop where
  messagesSent : network.total (·.messagesSent) = network.counters.messagesSent
  messagesReceived :
    network.total (·.messagesReceived) = network.counters.messagesDelivered
  bytes : network.total (·.bytesSent) =
    network.total (·.bytesReceived) + bytes network.underway + bytes (lost past)
  messagesLeft : ∀ id,
    network.tally (·.messagesSent) id = (leaving id (sent past)).length
  bytesLeft : ∀ id, network.tally (·.bytesSent) id = Simnet.bytes (leaving id (sent past))
  messagesArrived : ∀ id,
    network.tally (·.messagesReceived) id = (arriving id (delivered past)).length
  bytesArrived : ∀ id,
    network.tally (·.bytesReceived) id = Simnet.bytes (arriving id (delivered past))

variable {config : NetworkConfig} {latency : Latency} {genesis : P.Payload}
variable {network : Network P} {past : List (Moment P)}

theorem tally_new (count : NodeInfo → Nat) (id : Nat) :
    (Network.new config latency genesis : Network P).tally count id = 0 := rfl

theorem Ledger.settled_new (ledger : Ledger (.new config latency genesis) past network) :
    (sent past).Perm (delivered past ++ lost past ++ network.underway) :=
  ledger.settled

theorem Ledger.balance (ledger : Ledger (.new config latency genesis) past network) :
    Balance network := by
  have booked := ledger.booked
  have accounted := ledger.settled_new.length_eq
  rw [List.length_append, List.length_append] at accounted
  have sent : network.counters.messagesSent = 0 + _ := booked.messagesSent
  have delivered : network.counters.messagesDelivered = 0 + _ := booked.messagesDelivered
  have lost : network.counters.droppedAtDelivery = 0 + _ := booked.droppedAtDelivery
  constructor
  · omega
  · unfold Counters.dropped
    omega

theorem Ledger.nodeBalance (ledger : Ledger (.new config latency genesis) past network)
    (keeps : ∀ moment ∈ past, moment.KeepsCounts) : NodeBalance past network := by
  have booked := ledger.booked
  have billed := ledger.billed keeps
  have settled := ledger.settled_new
  have messagesLeft : ∀ id,
      network.tally (·.messagesSent) id = (leaving id (sent past)).length := by
    intro id
    rw [billed.messagesSent, tally_new, Nat.zero_add]
  have bytesLeft : ∀ id,
      network.tally (·.bytesSent) id = bytes (leaving id (sent past)) := by
    intro id
    rw [billed.bytesSent, tally_new, Nat.zero_add]
  have messagesArrived : ∀ id,
      network.tally (·.messagesReceived) id = (arriving id (delivered past)).length := by
    intro id
    rw [billed.messagesReceived, tally_new, Nat.zero_add]
  have bytesArrived : ∀ id,
      network.tally (·.bytesReceived) id = bytes (arriving id (delivered past)) := by
    intro id
    rw [billed.bytesReceived, tally_new, Nat.zero_add]
  have senders : ∀ parcel ∈ sent past, parcel.sender < network.nodeCount :=
    fun parcel member => (ledger.known parcel member).1
  have receivers : ∀ parcel ∈ delivered past, parcel.receiver < network.nodeCount := by
    intro parcel member
    refine (ledger.known parcel (settled.mem_iff.mpr ?_)).2
    rw [List.append_assoc]
    exact List.mem_append_left _ member
  constructor
  · rw [total_eq_sum, booked.messagesSent]
    simp only [messagesLeft]
    exact (length_shares _ senders).trans (Nat.zero_add _).symm
  · rw [total_eq_sum, booked.messagesDelivered]
    simp only [messagesArrived]
    exact (length_shares _ receivers).trans (Nat.zero_add _).symm
  · have out : network.total (·.bytesSent) = bytes (sent past) := by
      rw [total_eq_sum]
      simp only [bytesLeft]
      exact bytes_shares _ senders
    have into : network.total (·.bytesReceived) = bytes (delivered past) := by
      rw [total_eq_sum]
      simp only [bytesArrived]
      exact bytes_shares _ receivers
    rw [out, into, bytes_perm settled, bytes_append, bytes_append]
    omega
  · exact messagesLeft
  · exact bytesLeft
  · exact messagesArrived
  · exact bytesArrived

/-- At every moment of a life the counters account for every message, and the counts of the nodes
do too as long as none were put in the place of others. -/
theorem Program.balanced {α : Type} (behaviour : Behaviour P) (config : NetworkConfig)
    (latency : Latency) (genesis : P.Payload) (life : Program P α) (fuel : Nat)
    {past rest : List (Moment P)}
    (lived : (life.record (Network.recordRun behaviour fuel)
      (.new config latency genesis)).history = past ++ rest) :
    Balance (stateAfter (.new config latency genesis) past) ∧
      ((∀ moment ∈ past, moment.KeepsCounts) →
        NodeBalance past (stateAfter (.new config latency genesis) past)) := by
  obtain ⟨stop, passes, -⟩ :=
    life_obeys (behaviour.all_of_forall fun _ => trivial)
      (life.all_of_forall fun _ => trivial) fuel
      (.new config latency genesis)
  rw [lived] at passes
  obtain ⟨middle, early, -⟩ := passes.split
  have ledger := early.ledger (Network.posted_new config latency genesis)
  rw [early.stop_eq] at ledger
  exact ⟨ledger.balance, ledger.nodeBalance⟩

theorem relay_balanced :
    (stateAfter relay.initial (((relay.exchange 1 5).record
      (Network.recordRun relay.behaviour 4) relay.initial).history.take 7)).underway.length =
        1 ∧
    Balance (stateAfter relay.initial (((relay.exchange 1 5).record
      (Network.recordRun relay.behaviour 4) relay.initial).history.take 7)) ∧
    NodeBalance (((relay.exchange 1 5).record
      (Network.recordRun relay.behaviour 4) relay.initial).history.take 7)
      (stateAfter relay.initial (((relay.exchange 1 5).record
        (Network.recordRun relay.behaviour 4) relay.initial).history.take 7)) := by
  obtain ⟨balance, nodes⟩ :=
    Program.balanced relay.behaviour {} (LatencyModel.fixed 2).latency ()
      (relay.exchange 1 5) 4 (List.take_append_drop 7 _).symm
  refine ⟨by decide +kernel, balance, nodes ?_⟩
  refine List.forall_iff_forall_mem.mp ?_
  exact ⟨⟨rfl, rfl, rfl, rfl⟩, ⟨rfl, rfl, rfl, rfl⟩, trivial, trivial, trivial, trivial, trivial⟩

def relay.resetting : Program relay (Except Error Unit) := do
  let _ ← Program.perform (.addNode (.new ⟨0, 0, none⟩ false) ())
  let _ ← Program.perform (.addNode (.new ⟨3, 4, none⟩ false) ())
  let _ ← Program.perform (P := relay) (.sendToMany 1 0 0 [1])
  Program.perform (.setInfo 0 (.new ⟨0, 0, none⟩ false))

def relay.reset : List (Moment relay) :=
  (relay.resetting.record (Network.recordRun relay.behaviour 0) relay.initial).history

/-- Counts that are put in the place of others do not add up any more. -/
theorem relay_reset_unbalanced :
    (stateAfter relay.initial relay.reset).counters.messagesSent = 1 ∧
    (stateAfter relay.initial relay.reset).total (·.messagesSent) = 0 ∧
    (stateAfter relay.initial relay.reset).underway.length = 1 ∧
    (stateAfter relay.initial relay.reset).total (·.bytesSent) <
      bytes (stateAfter relay.initial relay.reset).underway ∧
    ¬ NodeBalance relay.reset (stateAfter relay.initial relay.reset) := by
  refine ⟨rfl, rfl, rfl, by decide, fun balance => ?_⟩
  cases balance.messagesSent

end Conservation

end Simnet
