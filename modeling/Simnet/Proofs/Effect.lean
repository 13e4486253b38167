import Simnet.Proofs.Change
import Simnet.Proofs.Queue

namespace Simnet

/-! What operations amount to: the events that they push, and the counts that go
with the messages among them. Books compare two networks and list the messages that
were sent, delivered and lost in between, so the books of two stretches of a life add
up to the books of both. -/

structure Parcel (P : Protocol) where
  sender : Nat
  receiver : Nat
  message : P.Message

namespace Event

variable {P : Protocol}

def parcel? : Event P → Option (Parcel P)
  | delivery sender receiver message => some ⟨sender, receiver, message⟩
  | task _ => none

end Event

section Parcels

variable {P : Protocol} {κ : Type}

def parcels (entries : List (κ × Event P)) : List (Parcel P) :=
  entries.filterMap fun entry => entry.2.parcel?

def bytes : List (Parcel P) → Nat
  | [] => 0
  | parcel :: rest => P.size parcel.message + bytes rest

def leaving (id : Nat) (messages : List (Parcel P)) : List (Parcel P) :=
  messages.filter fun parcel => parcel.sender = id

def arriving (id : Nat) (messages : List (Parcel P)) : List (Parcel P) :=
  messages.filter fun parcel => parcel.receiver = id

@[simp] theorem parcels_nil : parcels ([] : List (κ × Event P)) = [] := rfl

@[simp] theorem parcels_append (first second : List (κ × Event P)) :
    parcels (first ++ second) = parcels first ++ parcels second :=
  List.filterMap_append

theorem parcels_perm {first second : List (κ × Event P)} (same : first.Perm second) :
    (parcels first).Perm (parcels second) :=
  same.filterMap _

@[simp] theorem parcels_numberFrom (first : Nat) (pushes : List (Nat × Event P)) :
    parcels (EventQueue.numberFrom first pushes) = parcels pushes := by
  have items := EventQueue.map_item_numberFrom first pushes
  calc parcels (EventQueue.numberFrom first pushes)
    _ = ((EventQueue.numberFrom first pushes).map (·.2)).filterMap Event.parcel? := by
        rw [List.filterMap_map]
        rfl
    _ = parcels pushes := by
        rw [items, List.filterMap_map]
        rfl

@[simp] theorem bytes_nil : bytes ([] : List (Parcel P)) = 0 := rfl

@[simp] theorem bytes_append (first second : List (Parcel P)) :
    bytes (first ++ second) = bytes first + bytes second := by
  induction first with
  | nil => simp
  | cons parcel rest induction =>
      simp only [List.cons_append, bytes, induction]
      omega

theorem bytes_perm {first second : List (Parcel P)} (same : first.Perm second) :
    bytes first = bytes second := by
  induction same with
  | nil => rfl
  | cons parcel _ induction => simp only [bytes, induction]
  | swap parcel other rest =>
      simp only [bytes]
      omega
  | trans _ _ first second => exact first.trans second

@[simp] theorem leaving_append (id : Nat) (first second : List (Parcel P)) :
    leaving id (first ++ second) = leaving id first ++ leaving id second :=
  List.filter_append ..

@[simp] theorem arriving_append (id : Nat) (first second : List (Parcel P)) :
    arriving id (first ++ second) = arriving id first ++ arriving id second :=
  List.filter_append ..

theorem leaving_perm (id : Nat) {first second : List (Parcel P)}
    (same : first.Perm second) : (leaving id first).Perm (leaving id second) :=
  same.filter _

end Parcels

namespace Network

variable {P : Protocol}

/-- What is kept of a node in one of its counts; nothing for an unknown node. -/
def tally (network : Network P) (count : NodeInfo → Nat) (id : Nat) : Nat :=
  match network.node? id with
  | none => 0
  | some node => count node.info

theorem tally_modifyNode (network : Network P) {count : NodeInfo → Nat}
    (id other amount : Nat) {change : Node P → Node P} (known : id < network.nodeCount)
    (adds : ∀ node, count (change node).info = count node.info + amount) :
    (network.modifyNode id change).tally count other =
      network.tally count other + if id = other then amount else 0 := by
  unfold tally
  rw [node?_modifyNode]
  by_cases same : id = other
  · subst same
    cases found : network.node? id with
    | none =>
        have := node?_eq_none_iff.mp found
        omega
    | some node => simp [adds]
  · simp [same]

theorem tally_modifyNode_same (network : Network P) {count : NodeInfo → Nat}
    (id other : Nat) {change : Node P → Node P}
    (same : ∀ node, network.node? id = some node →
      count (change node).info = count node.info) :
    (network.modifyNode id change).tally count other = network.tally count other := by
  unfold tally
  rw [node?_modifyNode]
  by_cases equal : id = other
  · subst equal
    cases found : network.node? id with
    | none => simp
    | some node => simp [same node found]
  · simp [equal]

theorem tally_joined (network : Network P) {count : NodeInfo → Nat} {info : NodeInfo}
    (state : P.State) (id : Nat)
    (nothing : count { info with id := network.nodeCount } = 0) :
    (network.joined info state).tally count id = network.tally count id := by
  unfold tally
  simp only [joined, node?, List.getElem?_append]
  by_cases known : id < network.nodes.length
  · rw [if_pos known]
  · rw [if_neg known, List.getElem?_eq_none (by omega : network.nodes.length ≤ id)]
    cases id - network.nodes.length with
    | zero => exact nothing
    | succ _ => rfl

/-! Books -/

/-- The counters moved by just these messages sent, delivered and lost. -/
structure Booked (before after : Network P) (sent delivered lost : List (Parcel P)) :
    Prop where
  messagesSent :
    after.counters.messagesSent = before.counters.messagesSent + sent.length
  messagesDelivered :
    after.counters.messagesDelivered =
      before.counters.messagesDelivered + delivered.length
  droppedAtDelivery :
    after.counters.droppedAtDelivery = before.counters.droppedAtDelivery + lost.length

/-- The counts of every node moved by just its share of these messages. -/
structure Billed (before after : Network P) (sent delivered : List (Parcel P)) :
    Prop where
  messagesSent : ∀ id,
    after.tally (·.messagesSent) id =
      before.tally (·.messagesSent) id + (leaving id sent).length
  bytesSent : ∀ id,
    after.tally (·.bytesSent) id =
      before.tally (·.bytesSent) id + bytes (leaving id sent)
  messagesReceived : ∀ id,
    after.tally (·.messagesReceived) id =
      before.tally (·.messagesReceived) id + (arriving id delivered).length
  bytesReceived : ∀ id,
    after.tally (·.bytesReceived) id =
      before.tally (·.bytesReceived) id + bytes (arriving id delivered)

variable {before middle after : Network P}
variable {sent delivered lost laterSent laterDelivered laterLost : List (Parcel P)}

theorem Booked.refl (network : Network P) : Booked network network [] [] [] :=
  ⟨rfl, rfl, rfl⟩

theorem Booked.trans (first : Booked before middle sent delivered lost)
    (second : Booked middle after laterSent laterDelivered laterLost) :
    Booked before after (sent ++ laterSent) (delivered ++ laterDelivered)
      (lost ++ laterLost) where
  messagesSent := by
    rw [second.messagesSent, first.messagesSent, List.length_append, Nat.add_assoc]
  messagesDelivered := by
    rw [second.messagesDelivered, first.messagesDelivered, List.length_append,
      Nat.add_assoc]
  droppedAtDelivery := by
    rw [second.droppedAtDelivery, first.droppedAtDelivery, List.length_append,
      Nat.add_assoc]

theorem Booked.of_counters (same : after.counters = before.counters) :
    Booked before after [] [] [] := by
  constructor <;> rw [same] <;> rfl

theorem Booked.perm_sent (booked : Booked before after sent delivered lost)
    (same : sent.Perm laterSent) : Booked before after laterSent delivered lost where
  messagesSent := by rw [booked.messagesSent, same.length_eq]
  messagesDelivered := booked.messagesDelivered
  droppedAtDelivery := booked.droppedAtDelivery

theorem Billed.refl (network : Network P) : Billed network network [] [] :=
  ⟨fun _ => rfl, fun _ => rfl, fun _ => rfl, fun _ => rfl⟩

theorem Billed.trans (first : Billed before middle sent delivered)
    (second : Billed middle after laterSent laterDelivered) :
    Billed before after (sent ++ laterSent) (delivered ++ laterDelivered) where
  messagesSent id := by
    rw [second.messagesSent, first.messagesSent, leaving_append, List.length_append,
      Nat.add_assoc]
  bytesSent id := by
    rw [second.bytesSent, first.bytesSent, leaving_append, bytes_append, Nat.add_assoc]
  messagesReceived id := by
    rw [second.messagesReceived, first.messagesReceived, arriving_append,
      List.length_append, Nat.add_assoc]
  bytesReceived id := by
    rw [second.bytesReceived, first.bytesReceived, arriving_append, bytes_append,
      Nat.add_assoc]

theorem Billed.of_nodes (same : after.nodes = before.nodes) :
    Billed before after [] [] := by
  have tallies : ∀ count id, after.tally count id = before.tally count id := by
    intro count id
    unfold tally node?
    rw [same]
  exact ⟨tallies _, tallies _, tallies _, tallies _⟩

theorem Billed.perm_sent (billed : Billed before after sent delivered)
    (same : sent.Perm laterSent) : Billed before after laterSent delivered where
  messagesSent id := by
    rw [billed.messagesSent, (leaving_perm id same).length_eq]
  bytesSent id := by
    rw [billed.bytesSent, bytes_perm (leaving_perm id same)]
  messagesReceived := billed.messagesReceived
  bytesReceived := billed.bytesReceived

/-! Effects -/

/-- The events that enter the queue, with the books that go with them. -/
structure Intake (kept : Prop) (before after : Network P)
    (pushes : List (Nat × Event P)) : Prop where
  queue : after.queue = before.queue.pushAll pushes
  growth : before.nodeCount ≤ after.nodeCount
  known : ∀ parcel ∈ parcels pushes,
    parcel.sender < after.nodeCount ∧ parcel.receiver < after.nodeCount
  booked : Booked before after (parcels pushes) [] []
  billed : kept → Billed before after (parcels pushes) []

/-- What a sequence of elementary changes does; it leaves the clock and the flags as
they are, and nothing that it pushes is due in the past. -/
structure Effect (kept : Prop) (before after : Network P)
    (pushes : List (Nat × Event P)) : Prop extends Intake kept before after pushes where
  time : after.time = before.time
  started : after.started = before.started
  halted : after.halted = before.halted
  notPast : ∀ pushed ∈ pushes, before.time ≤ pushed.1

variable {kept : Prop}

theorem Intake.silent (queue : after.queue = before.queue)
    (growth : before.nodeCount ≤ after.nodeCount) (booked : Booked before after [] [] [])
    (billed : kept → Billed before after [] []) : Intake kept before after [] where
  queue := queue
  growth := growth
  known := by simp
  booked := booked
  billed := billed

theorem Intake.single {time : Nat} {event : Event P}
    (queue : after.queue = before.queue.push time event)
    (nodes : after.nodeCount = before.nodeCount)
    (known : ∀ parcel ∈ event.parcel?,
      parcel.sender < before.nodeCount ∧ parcel.receiver < before.nodeCount)
    (booked : Booked before after event.parcel?.toList [] [])
    (billed : Billed before after event.parcel?.toList []) :
    Intake kept before after [(time, event)] := by
  have carried : parcels [(time, event)] = event.parcel?.toList := by
    cases event <;> rfl
  constructor
  · exact queue
  · exact Nat.le_of_eq nodes.symm
  · intro parcel member
    rw [carried, Option.mem_toList] at member
    rw [nodes]
    exact known parcel member
  · rw [carried]
    exact booked
  · intro _
    rw [carried]
    exact billed

theorem Intake.trans {pushes laterPushes : List (Nat × Event P)}
    (first : Intake kept before middle pushes)
    (second : Intake kept middle after laterPushes) :
    Intake kept before after (pushes ++ laterPushes) where
  queue := by rw [second.queue, first.queue, EventQueue.pushAll_append]
  growth := Nat.le_trans first.growth second.growth
  known := by
    intro parcel member
    rw [parcels_append] at member
    rcases List.mem_append.mp member with early | late
    · have := first.known parcel early
      have := second.growth
      omega
    · exact second.known parcel late
  booked := by
    rw [parcels_append]
    exact first.booked.trans second.booked
  billed holds := by
    rw [parcels_append]
    exact (first.billed holds).trans (second.billed holds)

theorem Effect.refl (network : Network P) : Effect kept network network [] where
  toIntake := .silent rfl (Nat.le_refl _) (.refl network) fun _ => .refl network
  time := rfl
  started := rfl
  halted := rfl
  notPast := by simp

theorem Effect.trans {pushes laterPushes : List (Nat × Event P)}
    (first : Effect kept before middle pushes)
    (second : Effect kept middle after laterPushes) :
    Effect kept before after (pushes ++ laterPushes) where
  toIntake := first.toIntake.trans second.toIntake
  time := by rw [second.time, first.time]
  started := by rw [second.started, first.started]
  halted := by rw [second.halted, first.halted]
  notPast := by
    intro pushed member
    rcases List.mem_append.mp member with early | late
    · exact first.notPast pushed early
    · rw [← first.time]
      exact second.notPast pushed late

theorem Effect.silent (intake : Intake kept before after [])
    (time : after.time = before.time) (started : after.started = before.started)
    (halted : after.halted = before.halted) : Effect kept before after [] where
  toIntake := intake
  time := time
  started := started
  halted := halted
  notPast := by simp

theorem Effect.single {due : Nat} {event : Event P}
    (intake : Intake kept before after [(due, event)]) (time : after.time = before.time)
    (started : after.started = before.started) (halted : after.halted = before.halted)
    (notPast : before.time ≤ due) : Effect kept before after [(due, event)] where
  toIntake := intake
  time := time
  started := started
  halted := halted
  notPast := by
    intro pushed member
    rw [List.mem_singleton] at member
    subst member
    exact notPast

theorem billed_joined (network : Network P) {info : NodeInfo} (state : P.State)
    (fresh : info.IsFresh) : Billed network (network.joined info state) [] [] where
  messagesSent id := tally_joined network state id fresh.messagesSent
  bytesSent id := tally_joined network state id fresh.bytesSent
  messagesReceived id := tally_joined network state id fresh.messagesReceived
  bytesReceived id := tally_joined network state id fresh.bytesReceived

theorem billed_edit {network : Network P} {id : Nat} {change : Node P → Node P}
    (same : ∀ node, network.node? id = some node →
      (change node).info.SameTraffic node.info) :
    Billed network (network.modifyNode id change) [] [] where
  messagesSent other :=
    tally_modifyNode_same network id other fun node found => (same node found).messagesSent
  bytesSent other :=
    tally_modifyNode_same network id other fun node found => (same node found).bytesSent
  messagesReceived other :=
    tally_modifyNode_same network id other
      fun node found => (same node found).messagesReceived
  bytesReceived other :=
    tally_modifyNode_same network id other fun node found => (same node found).bytesReceived

theorem billed_countSent (network : Network P) {sender receiver : Nat}
    (message : P.Message) (known : sender < network.nodeCount) :
    Billed network
      (network.modifyNode sender fun node =>
        { node with info := node.info.countSent (P.size message) })
      [⟨sender, receiver, message⟩] [] where
  messagesSent id := by
    rw [tally_modifyNode network sender id 1 known fun _ => rfl]
    by_cases same : sender = id <;> simp [leaving, same]
  bytesSent id := by
    rw [tally_modifyNode network sender id (P.size message) known fun _ => rfl]
    by_cases same : sender = id <;> simp [leaving, bytes, same]
  messagesReceived id := tally_modifyNode_same network sender id fun _ _ => rfl
  bytesReceived id := tally_modifyNode_same network sender id fun _ _ => rfl

theorem billed_countReceived (network : Network P) {sender receiver : Nat}
    (message : P.Message) (known : receiver < network.nodeCount) :
    Billed network
      (network.modifyNode receiver fun node =>
        { node with info := node.info.countReceived (P.size message) })
      [] [⟨sender, receiver, message⟩] where
  messagesSent id := tally_modifyNode_same network receiver id fun _ _ => rfl
  bytesSent id := tally_modifyNode_same network receiver id fun _ _ => rfl
  messagesReceived id := by
    rw [tally_modifyNode network receiver id 1 known fun _ => rfl]
    by_cases same : receiver = id <;> simp [arriving, same]
  bytesReceived id := by
    rw [tally_modifyNode network receiver id (P.size message) known fun _ => rfl]
    by_cases same : receiver = id <;> simp [arriving, bytes, same]

theorem Billed.of_same_nodes {other : Network P} (billed : Billed before after sent delivered)
    (same : other.nodes = after.nodes) : Billed before other sent delivered := by
  have unchanged := Billed.of_nodes same
  simpa using billed.trans unchanged

theorem effect_settle (network : Network P) (message : P.Message) {sender : Nat}
    {decision : Nat × Fate} (senderKnown : sender < network.nodeCount)
    (receiverKnown : decision.1 < network.nodeCount)
    (notPast : ∀ arrival, decision.2 = .deliver arrival → network.time ≤ arrival) :
    ∃ pushes, Effect kept network (commitFate message sender network decision) pushes := by
  obtain ⟨receiver, fate⟩ := decision
  cases fate with
  | deliver arrival =>
      refine ⟨[(arrival, .delivery sender receiver message)],
        .single (.single rfl (nodeCount_commitFate ..) ?_ ⟨rfl, rfl, rfl⟩ ?_)
          rfl rfl rfl (notPast arrival rfl)⟩
      · intro parcel member
        cases member
        exact ⟨senderKnown, receiverKnown⟩
      · exact (billed_countSent network message senderKnown).of_same_nodes rfl
  | _ =>
      exact ⟨[], .silent (.silent rfl (Nat.le_refl _) ⟨rfl, rfl, rfl⟩
        fun _ => .of_nodes rfl) rfl rfl rfl⟩

theorem Change.effect (change : Change kept before after) :
    ∃ pushes, Effect kept before after pushes := by
  cases change with
  | draw | divide | heal | link | unlink | build | mark | insert | receive =>
      exact ⟨[], .silent (.silent rfl (Nat.le_refl _) (.of_counters rfl)
        fun _ => .of_nodes rfl) rfl rfl rfl⟩
  | join state _ _ _ fresh =>
      refine ⟨[], .silent (.silent rfl ?_ (.of_counters rfl)
        fun holds => billed_joined before state (fresh holds)) rfl rfl rfl⟩
      simp [joined, nodeCount]
  | edit same =>
      exact ⟨[], .silent (.silent rfl (by simp) (.of_counters rfl)
        fun holds => billed_edit (same holds)) rfl rfl rfl⟩
  | settle message senderKnown receiverKnown notPast =>
      exact effect_settle before message senderKnown receiverKnown notPast
  | enlist task known notPast positive =>
      refine ⟨[(_, .task _)], .single (.single rfl rfl ?_ (.of_counters rfl)
        (.of_nodes rfl)) rfl rfl rfl notPast⟩
      intro parcel member
      cases member

theorem Changes.effect (changes : Changes kept before after) :
    ∃ pushes, Effect kept before after pushes := by
  induction changes with
  | refl => exact ⟨[], .refl before⟩
  | tail _ change induction =>
      obtain ⟨pushes, first⟩ := induction
      obtain ⟨laterPushes, second⟩ := change.effect
      exact ⟨pushes ++ laterPushes, first.trans second⟩

theorem effect_perform (kept : Prop) {op : Op P} {answer : op.Answer}
    (quiet : op.isRun = false) (keeps : kept → op.KeepsCounts before)
    (performed : op.perform Op.idle before = some (answer, after)) :
    ∃ pushes, Effect kept before after pushes :=
  (changes_perform quiet keeps performed).effect

end Network

end Simnet
