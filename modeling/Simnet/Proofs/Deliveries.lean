import Simnet.Proofs.Conservation
import Simnet.Proofs.Letters

namespace Simnet

/-! Where deliveries come from. A delivery is taken off the queue long after its letter was
accepted, and nodes go down and partitions come and go in between. The number that a letter
gets in the queue is given out once, so a delivery leads back to the one moment at which
its letter was accepted, and to what the network was like then. -/

section Deliveries

open scoped List

variable {P : Protocol} {behaviour : Behaviour P} {good : Op P → Prop} {moment : Moment P}
variable {start stop : Network P} {past : List (Moment P)}

namespace Moment

def isSend (moment : Moment P) : Bool :=
  match moment.happening with
  | .operated op => op.isSend
  | _ => false

/-- At this moment an operation puts a letter of its own into the queue. -/
structure Accepted (moment : Moment P) (letter : Letter P) (key : EventKey) : Prop where
  queued : (key, letter.event) ∈ moment.enqueued
  sent : ∃ op, moment.happening = .operated op ∧ letter ∈ (op.letters moment.before).flatten
  accepts : moment.before.Accepts letter key.time

/-- A delivery comes due at its instant. Its body runs if the receiver is up; otherwise it
is dropped, and no node is any the wiser. -/
inductive Meets (moment : Moment P) (receiver : Nat) : Reaction → Prop
  | acted (live : moment.after.isLive receiver = true) : Meets moment receiver (.acted none)
  | dropped (down : moment.after.isLive receiver = false)
      (spared : moment.after.nodes = moment.before.nodes) : Meets moment receiver .dropped

theorem Lawful.sent_eq_nil (lawful : moment.Lawful behaviour good)
    (posted : moment.before.Posted) (silent : moment.isSend = false) : moment.sent = [] := by
  have counted := (lawful.ledger posted).booked.messagesSent
  rw [sent_singleton] at counted
  have same : moment.after.counters.messagesSent = moment.before.counters.messagesSent := by
    cases lawful with
    | operated quiet _ performed => rw [Op.counters_perform quiet silent performed]
    | began started =>
        obtain ⟨-, -, rfl⟩ := Network.start_eq_ok started
        rfl
    | took popped =>
        dsimp only
        unfold Network.countEvent
        split <;> rfl
    | rearmed | halted | finished => rfl
  apply List.eq_nil_of_length_eq_zero
  omega

theorem Lawful.accepted (lawful : moment.Lawful behaviour good)
    (posted : moment.before.Posted) {key : EventKey} {sender receiver : Nat}
    {message : P.Message} (queued : (key, .delivery sender receiver message) ∈ moment.enqueued) :
    ∃ letter, letter.event = .delivery sender receiver message ∧
      moment.Accepted letter key := by
  cases isSend : moment.isSend with
  | false =>
      have carried : ⟨sender, receiver, message⟩ ∈ moment.sent :=
        List.mem_filterMap.mpr ⟨_, queued, rfl⟩
      rw [lawful.sent_eq_nil posted isSend] at carried
      cases carried
  | true =>
      cases lawful with
      | @operated before after op answer quiet permitted performed =>
          obtain ⟨sends, posts⟩ := Op.posts_perform isSend performed
          have pushed := queued
          rw [Moment.enqueued, posts.mails.settled.queue,
            (posted.ordered.since_pushAll _).mem_iff] at pushed
          have arrived : (key.time, .delivery sender receiver message) ∈
              Network.arrivals sends.flatten := EventQueue.exists_of_mem_numberFrom pushed
          obtain ⟨letter, sent, isEvent, accepts⟩ := posts.accepts arrived
          rw [isEvent] at queued
          exact ⟨letter, isEvent.symm, queued, ⟨op, rfl, sent⟩, accepts⟩
      | began | took | rearmed | halted | finished => cases isSend

theorem Lawful.meets (lawful : moment.Lawful behaviour good) (posted : moment.before.Posted)
    {key : EventKey} {sender receiver : Nat} {message : P.Message} {reaction : Reaction}
    (took : moment.happening = .took key (.delivery sender receiver message) reaction) :
    moment.after.time = key.time ∧ moment.Meets receiver reaction := by
  cases lawful with
  | @took before queue _ _ deadline popped =>
      cases took
      refine ⟨Network.time_countEvent .., ?_⟩
      have pending : ⟨sender, receiver, message⟩ ∈ before.underway :=
        List.mem_filterMap.mpr ⟨_, EventQueue.mem_of_popDue popped, rfl⟩
      have known : receiver < before.nodeCount := (posted.known _ pending).2
      cases found : before.node? receiver with
      | none =>
          have unknown := Network.node?_eq_none_iff.mp found
          omega
      | some node =>
          have arrived : (before.arrive queue key.time).node? receiver = some node := found
          have live : (before.arrive queue key.time).isLive receiver = ! node.info.down := by
            rw [Network.isLive, arrived]
          cases down : node.info.down with
          | true =>
              rw [down] at live
              simp only [Network.reaction, arrived, down, if_true]
              exact .dropped live rfl
          | false =>
              rw [down] at live
              simp only [Network.reaction, arrived, down, Bool.false_eq_true, if_false]
              refine .acted ?_
              have same : ((before.arrive queue key.time).modifyNode receiver fun node =>
                  { node with info := node.info.countReceived (P.size message) }).isLive
                    receiver = (before.arrive queue key.time).isLive receiver :=
                Network.isLive_modifyNode _ receiver receiver fun _ => rfl
              exact same.trans live
  | operated | began | rearmed | halted | finished => cases took

end Moment

theorem Moment.Lawful.numbers (lawful : moment.Lawful behaviour good)
    (ordered : moment.before.queue.WellFormed) :
    (List.range moment.before.queue.enqueued ++ moment.enqueued.map (·.1.sequence)).Perm
      (List.range moment.after.queue.enqueued) := by
  rcases lawful.takes_or_brings with
    ⟨before, queue, key, event, deadline, popped, rfl⟩ | ⟨-, pushes, intake⟩
  · obtain ⟨-, count, -⟩ := EventQueue.popDue_eq_some_iff.mp popped
    simp only [Moment.enqueued, Network.queue_countEvent, Network.arrive]
    rw [ordered.since_popDue popped, count]
    simp
  · have came := ordered.since_pushAll pushes
    rw [← intake.queue] at came
    have numbers : moment.enqueued.map (·.1.sequence) ~
        List.range' moment.before.queue.enqueued pushes.length := by
      rw [← EventQueue.map_sequence_numberFrom]
      exact came.map _
    rw [intake.queue, EventQueue.enqueued_pushAll]
    calc List.range moment.before.queue.enqueued ++ moment.enqueued.map (·.1.sequence)
      _ ~ List.range moment.before.queue.enqueued ++
            List.range' moment.before.queue.enqueued pushes.length := numbers.append_left _
      _ = List.range (moment.before.queue.enqueued + pushes.length) := by
          rw [List.range_eq_range', List.range_eq_range', ← List.range'_append_1, Nat.zero_add]

theorem Passes.numbers (passes : Passes (Moment.Lawful behaviour good) start past stop)
    (vacant : start.queue = .empty) :
    ((enqueued past).map (·.1.sequence)).Perm (List.range stop.queue.enqueued) := by
  have general : stop.queue.WellFormed ∧
      ((enqueued past).map (·.1.sequence)).Perm (List.range stop.queue.enqueued) := by
    refine passes.preserves (motive := fun earlier network => network.queue.WellFormed ∧
      ((enqueued earlier).map (·.1.sequence)).Perm (List.range network.queue.enqueued)) ?_ ?_
    · rw [vacant]
      exact ⟨EventQueue.wellFormed_empty, .nil⟩
    · rintro earlier moment lawful ⟨ordered, numbers⟩
      refine ⟨(lawful.flow ordered).1, ?_⟩
      rw [enqueued_append, enqueued_singleton, List.map_append]
      exact (numbers.append_right _).trans (lawful.numbers ordered)
  exact general.2

theorem Passes.nodup_keys (passes : Passes (Moment.Lawful behaviour good) start past stop)
    (vacant : start.queue = .empty) :
    ((enqueued past).map (·.1)).Nodup ∧ ((taken past).map (·.1)).Nodup := by
  have distinct : ((enqueued past).map (·.1)).Nodup := by
    have numbers := (passes.numbers vacant).nodup_iff.mpr List.nodup_range
    have same : (enqueued past).map (·.1.sequence) =
        ((enqueued past).map (·.1)).map (·.sequence) := by
      rw [List.map_map]
      rfl
    rw [same] at numbers
    exact numbers.of_map _
  refine ⟨distinct, ?_⟩
  obtain ⟨-, flow⟩ := passes.flow (vacant ▸ EventQueue.wellFormed_empty)
  rw [vacant] at flow
  have all := (flow.map (·.1)).nodup_iff.mp distinct
  rw [List.map_append] at all
  exact (List.nodup_append.mp all).1

theorem Passes.posted (passes : Passes (Moment.Lawful behaviour good) start past stop)
    (posted : start.Posted) :
    ∀ moment ∈ past, moment.Lawful behaviour good ∧ moment.before.Posted :=
  passes.forall_mem posted (fun _ lawful posted => (lawful.ledger posted).posted posted)
    fun _ lawful posted => ⟨lawful, posted⟩

theorem Passes.enqueued_of_took
    (passes : Passes (Moment.Lawful behaviour good) start past moment.before)
    (vacant : start.queue = .empty) (lawful : moment.Lawful behaviour good) {key : EventKey}
    {event : Event P} {reaction : Reaction}
    (took : moment.happening = .took key event reaction) :
    ∃ earlier ∈ past, (key, event) ∈ earlier.enqueued := by
  cases lawful with
  | @took before queue _ _ deadline popped =>
      cases took
      obtain ⟨-, flow⟩ := passes.flow (vacant ▸ EventQueue.wellFormed_empty)
      rw [vacant] at flow
      have came : (key, event) ∈ enqueued past :=
        flow.mem_iff.mpr (List.mem_append_right _ (EventQueue.mem_of_popDue popped))
      exact List.mem_flatMap.mp came
  | operated | began | rearmed | halted | finished => cases took

/-- Each delivery leads back to the moment at which its letter was accepted, and each letter of a
send that succeeds is decided on and counted once. -/
theorem Program.letters_accounted {α : Type} (behaviour : Behaviour P)
    (config : NetworkConfig) (latency : Latency) (genesis : P.Payload) (life : Program P α)
    (fuel : Nat) {history : List (Moment P)}
    (lived : history = (life.record (Network.recordRun behaviour fuel)
      (.new config latency genesis)).history) :
    (∀ past moment rest, history = past ++ moment :: rest →
      ∀ key sender receiver message reaction,
        moment.happening = .took key (.delivery sender receiver message) reaction →
        moment.after.time = key.time ∧ moment.Meets receiver reaction ∧
          ∃ earlier sending later letter, past = earlier ++ sending :: later ∧
            letter.event = .delivery sender receiver message ∧
              sending.Accepted letter key) ∧
    ((enqueued history).map (·.1)).Nodup ∧ ((taken history).map (·.1)).Nodup ∧
    ∀ moment ∈ history, ∀ op, moment.happening = .operated op → op.isSend = true →
      ∃ answer sends, op.perform Op.idle moment.before = some (answer, moment.after) ∧
        moment.before.Posts (op.letters moment.before) (op.failure? answer) sends
          moment.after ∧
        moment.before.Settled sends.flatten moment.after := by
  subst lived
  have passes := past_passes (List.append_nil
    (life.record (Network.recordRun behaviour fuel) (.new config latency genesis)).history).symm
  have initial : (Network.new config latency genesis : Network P).Posted :=
    Network.posted_new config latency genesis
  obtain ⟨given, consumed⟩ := passes.nodup_keys rfl
  refine ⟨?_, given, consumed, ?_⟩
  · intro past moment rest split key sender receiver message reaction took
    rw [split] at passes
    obtain ⟨middle, early, rfl, lawful, -⟩ := passes.split
    have posted := early.posted initial
    obtain ⟨clock, meets⟩ := lawful.meets ((early.ledger initial).posted initial) took
    obtain ⟨sending, member, queued⟩ := early.enqueued_of_took rfl lawful took
    obtain ⟨sendingLawful, sendingPosted⟩ := posted sending member
    obtain ⟨letter, isLetter, accepted⟩ := sendingLawful.accepted sendingPosted queued
    obtain ⟨earlier, later, split⟩ := List.append_of_mem member
    exact ⟨clock, meets, earlier, sending, later, letter, split, isLetter, accepted⟩
  · intro moment member op operated isSend
    obtain ⟨lawful, -⟩ := passes.posted initial moment member
    cases lawful with
    | operated quiet _ performed =>
        cases operated
        obtain ⟨sends, posts⟩ := Op.posts_perform isSend performed
        exact ⟨_, sends, performed, posts, posts.mails.settled⟩
    | began | took | rearmed | halted | finished => cases operated

/-! A letter to a node that is up, and one to a node that is down -/

def relay.scatter : Program relay (Except Error Unit) := do
  let _ ← Program.perform (.addNode (.new ⟨0, 0, none⟩ false) ())
  let _ ← Program.perform (.addNode (.new ⟨3, 4, none⟩ false) ())
  let _ ← Program.perform (.addNode (.new ⟨6, 8, none⟩ false) ())
  let _ ← Program.perform (.setDown 2 true)
  let _ ← Program.perform (P := relay) (.sendToMany 0 1 0 [1, 2])
  Program.perform (.runUntil 5)

def relay.scattered : List (Moment relay) :=
  (relay.scatter.record (Network.recordRun relay.behaviour 5) relay.initial).history

theorem relay_letters_accounted :
    (taken relay.scattered).map (·.1) = [⟨3, 0⟩] ∧
    ∃ past moment rest, relay.scattered = past ++ moment :: rest ∧
      moment.happening = .took ⟨3, 0⟩ (.delivery 0 1 0) (.acted none) ∧
      moment.after.time = 3 ∧ moment.Meets 1 (.acted none) ∧
      ∃ earlier sending later letter, past = earlier ++ sending :: later ∧
        letter.event = .delivery 0 1 0 ∧ sending.Accepted letter ⟨3, 0⟩ := by
  obtain ⟨arrives, -⟩ := Program.letters_accounted relay.behaviour {}
    (LatencyModel.fixed 2).latency () relay.scatter 5 rfl
  have split : relay.scattered = relay.scattered.take 6 ++
      relay.scattered.get ⟨6, by decide +kernel⟩ :: relay.scattered.drop 7 := rfl
  exact ⟨rfl, _, _, _, split, rfl, arrives _ _ _ split _ _ _ _ _ rfl⟩

end Deliveries

end Simnet
