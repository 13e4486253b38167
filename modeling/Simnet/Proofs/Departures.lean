import Simnet.Proofs.Letters

namespace Simnet

/-! The shape of a forward. A node passes a flood on with one letter for each of its peers
but the one it came from. Without a stagger the letters leave together and in the order of
the links, with one they leave in a drawn order and evenly spaced. The plan of the forward
looks at the last of these times only, and that keeps all of them in range. -/

/-- When the copy leaves that is in this place of a forward. -/
def FloodHeader.departure (header : FloodHeader) (now place : Nat) : Nat :=
  now + header.localDelay + place * header.delayBetweenPeers

section Departures

variable {P : Protocol}

/-! The letters of a forward -/

namespace Letter

def spaced (message : P.Message) (header : FloodHeader) (now node : Nat)
    (receivers : List Nat) : List (Letter P) :=
  receivers.mapIdx fun place receiver =>
    ⟨message, header.departure now place, node, receiver⟩

theorem toAll_eq_spaced (message : P.Message) {header : FloodHeader}
    (together : header.delayBetweenPeers = 0) (now node : Nat) (receivers : List Nat) :
    toAll message (now + header.localDelay) node receivers =
      spaced message header now node receivers := by
  symm
  rw [spaced, List.mapIdx_eq_iff]
  intro place
  rw [toAll, List.getElem?_map, FloodHeader.departure, together, Nat.mul_zero, Nat.add_zero]

theorem flatten_inTurn (message : P.Message) (sender delay departure : Nat)
    (receivers : List Nat) :
    (inTurn message sender delay departure receivers).flatten =
      receivers.mapIdx fun place receiver =>
        ⟨message, departure + place * delay, sender, receiver⟩ := by
  induction receivers generalizing departure with
  | nil => rfl
  | cons receiver rest induction =>
      have moved : ∀ place,
          departure + delay + place * delay = departure + (place + 1) * delay := by
        intro place
        rw [Nat.succ_mul, Nat.add_assoc, Nat.add_comm delay]
      rw [inTurn, List.flatten_cons, induction, List.mapIdx_cons, Nat.zero_mul]
      simp only [moved]
      rfl

end Letter

namespace Network

variable {network before after : Network P} {message : P.Message} {header : FloodHeader}
variable {node : Nat} {source : Option Nat} {plan : FloodPlan}

theorem flatten_copies (message : P.Message) (node : Nat)
    (leaves : plan.departure = network.time + header.localDelay) (drawing : Network P) :
    ∃ order : List Nat, order.Perm plan.receivers ∧
      (header.delayBetweenPeers = 0 → order = plan.receivers) ∧
      (drawing.copies message header node plan).flatten =
        Letter.spaced message header network.time node order := by
  unfold copies
  split
  · rename_i together
    refine ⟨plan.receivers, .refl _, fun _ => rfl, ?_⟩
    rw [List.flatten_singleton, leaves, Letter.toAll_eq_spaced message together]
  · rename_i stagger
    refine ⟨_, Rng.shuffle_perm plan.receivers drawing.rng,
      fun together => absurd together stagger, ?_⟩
    rw [Letter.flatten_inTurn, leaves]
    rfl

/-! Letters as attempts -/

theorem length_decisions (decisions : List (Letter P × Fate)) :
    (parcels (arrivals decisions)).length + (decisions.map (·.2)).count .down +
        (decisions.map (·.2)).count .partitioned + (decisions.map (·.2)).count .discarded =
      decisions.length := by
  unfold parcels arrivals
  induction decisions with
  | nil => rfl
  | cons decision rest induction =>
      obtain ⟨letter, fate⟩ := decision
      cases fate <;> simp [Letter.event, Event.parcel?] at induction ⊢ <;> omega

theorem Settled.attempts {decisions : List (Letter P × Fate)}
    (settled : before.Settled decisions after) :
    after.counters.attempts = before.counters.attempts + decisions.length := by
  have all := length_decisions decisions
  have sent := settled.booked.messagesSent
  have down := settled.droppedDown
  have partitioned := settled.droppedPartition
  have discarded := settled.droppedDiscarded
  unfold Counters.attempts Counters.droppedAtSend
  omega

def onward (network : Network P) (node : Nat) (source : Option Nat) : List Nat :=
  (network.overlay.peers node).filter fun peer => some peer ≠ source

def LeavesInTime (network : Network P) (header : FloodHeader) (node : Nat)
    (source : Option Nat) : Prop :=
  header.departure network.time ((network.onward node source).length - 1) ≤ maxTime

theorem peers_eq_of_ok {peers : List Nat} (listed : network.peers node = .ok peers) :
    network.overlay.peers node = peers := by
  unfold Network.peers at listed
  split at listed
  · rename_i found
    cases listed
    rw [Overlay.peers, found, Option.getD_some]
  · cases listed

theorem plan_eq (planned : network.planFlood header node source = .ok (some plan)) :
    plan = ⟨network.time + header.localDelay, network.onward node source⟩ ∧
      network.LeavesInTime header node source := by
  unfold planFlood at planned
  split at planned
  · cases planned
  · split at planned
    · cases planned
    · split at planned
      · cases planned
      · rename_i peers listed
        dsimp only at planned
        split at planned
        · cases planned
        · rename_i departure leaves
          split at planned
          · cases planned
          · split at planned
            · cases planned
            · rename_i last arrives
              cases planned
              obtain ⟨rfl, -⟩ := timeAfter_eq_ok_iff.mp leaves
              obtain ⟨late, inRange⟩ := timeAfter_eq_ok_iff.mp arrives
              unfold LeavesInTime onward FloodHeader.departure
              rw [peers_eq_of_ok listed, late]
              exact ⟨rfl, inRange⟩

/-- No copy leaves later than the last one, and what is computed on the way to its time is
no larger than that. -/
theorem LeavesInTime.each (inTime : network.LeavesInTime header node source) {place : Nat}
    (within : place < (network.onward node source).length) :
    place * header.delayBetweenPeers ≤ maxTime ∧
      header.departure network.time place ≤ maxTime := by
  have earlier : place * header.delayBetweenPeers ≤
      ((network.onward node source).length - 1) * header.delayBetweenPeers :=
    Nat.mul_le_mul_right _ (by omega)
  unfold LeavesInTime at inTime
  unfold FloodHeader.departure at inTime ⊢
  omega

/-- A node passes a flood on: with one letter for each of its peers but the one that it came
from, in the order of the links unless there is a stagger, and with one mark. -/
structure PassedOn (before : Network P) (message : P.Message) (header : FloodHeader)
    (node : Nat) (source : Option Nat) (after : Network P) : Prop where
  distinct : (before.onward node source).Nodup
  letters : ∃ (order : List Nat) (sends : List (List (Letter P × Fate))),
    order.Perm (before.onward node source) ∧
      (header.delayBetweenPeers = 0 → order = before.onward node source) ∧
      sends.flatten.map (·.1) = Letter.spaced message header before.time node order ∧
      before.Mails sends after
  attempts : after.counters.attempts =
    before.counters.attempts + (before.onward node source).length
  marked : ∀ messageId other, after.overlay.hasSeen messageId other = true ↔
    (messageId = header.messageId ∧ other = node) ∨
      before.overlay.hasSeen messageId other = true

/-- What a call for a flood does at a node that has not seen it. Once the node is marked,
all copies leave in time; when they cannot, the call fails before. -/
structure Spreads (before : Network P) (message : P.Message) (header : FloodHeader)
    (node : Nat) (source : Option Nat) (failure : Option Error) (after : Network P) :
    Prop where
  passedOn : failure = none → before.PassedOn message header node source after
  inTime : after.overlay.hasSeen header.messageId node = true →
    ∀ place < (before.onward node source).length,
      place * header.delayBetweenPeers ≤ maxTime ∧
        header.departure before.time place ≤ maxTime
  refused : maxTime < header.departure before.time
      ((before.onward node source).length - 1) →
    failure ≠ none ∧ after = before

theorem passedOn_of_sendCopies (wired : network.Wired)
    (planned : network.planFlood header node source = .ok (some plan))
    (forwarded : network.forwardFlood message header node source = (.ok true, after))
    (sent : (network.markSeen header.messageId node).sendCopies message header node plan =
      (.ok (), after)) : network.PassedOn message header node source after := by
  obtain ⟨rfl, -⟩ := plan_eq planned
  obtain ⟨sends, posts⟩ := posts_forwardFlood forwarded
  have whole := posts.whole rfl
  unfold floodLetters at whole
  rw [planned] at whole
  have leaves : (⟨network.time + header.localDelay, network.onward node source⟩ :
      FloodPlan).departure = network.time + header.localDelay := rfl
  obtain ⟨order, sameReceivers, inOrder, flat⟩ := flatten_copies message node leaves network
  have letters : sends.flatten.map (·.1) =
      Letter.spaced message header network.time node order := by
    rw [List.map_flatten, whole, flat]
  refine ⟨?_, ⟨order, sends, sameReceivers, inOrder, letters, posts.mails⟩, ?_, ?_⟩
  · exact (wired.sound.distinct node).filter _
  · rw [posts.mails.settled.attempts, ← List.length_map (·.1), letters, Letter.spaced,
      List.length_mapIdx, sameReceivers.length_eq]
  · intro messageId other
    rw [(sameLayers_sendCopies sent).overlay]
    exact Overlay.hasSeen_markSeen (listed_of_planFlood planned) messageId other

theorem spreads_of_forwardFlood (wired : network.Wired) {outcome : Except Error Bool}
    (new : network.overlay.hasSeen header.messageId node = false)
    (forwarded : network.forwardFlood message header node source = (outcome, after)) :
    outcome ≠ .ok false ∧
      network.Spreads message header node source (failureOf outcome) after := by
  cases forwards_of_forwardFlood forwarded with
  | @refused error planned =>
      refine ⟨nofun, nofun, ?_, fun _ => ⟨nofun, rfl⟩⟩
      intro seen
      rw [new] at seen
      cases seen
  | ignored planned =>
      rcases planFlood_eq_ok planned with ⟨seen, -⟩ | ⟨-, _, impossible⟩
      · rw [new] at seen
        cases seen
      · cases impossible
  | passed planned sent =>
      have inTime := (plan_eq planned).2
      refine ⟨nofun, fun _ => passedOn_of_sendCopies wired planned forwarded sent, ?_, ?_⟩
      · exact fun _ place within => inTime.each within
      · exact fun late => absurd inTime (Nat.not_le.mpr late)
  | broken planned failed =>
      have inTime := (plan_eq planned).2
      refine ⟨nofun, nofun, ?_, ?_⟩
      · exact fun _ place within => inTime.each within
      · exact fun late => absurd inTime (Nat.not_le.mpr late)

end Network

/-- A node passes a flood on with one letter for each of its peers but the one that it came from,
all at once or evenly spaced. If the last one cannot leave in time the call fails before the
mark. -/
theorem Program.forwards_spaced {α : Type} (behaviour : Behaviour P) (config : NetworkConfig)
    (latency : Latency) (genesis : P.Payload) (life : Program P α) (fuel : Nat)
    {past rest : List (Moment P)}
    (lived : (life.record (Network.recordRun behaviour fuel)
      (.new config latency genesis)).history = past ++ rest)
    (network : Network P) (reached : network = stateAfter (.new config latency genesis) past)
    (message : P.Message) (header : FloodHeader) :
    (∀ origin outcome after, network.flood message header origin = (outcome, after) →
      network.overlay.hasSeen header.messageId origin = false →
        network.Spreads message header origin none (failureOf outcome) after) ∧
    ∀ sender receiver outcome after,
      network.receiveFlood message header sender receiver = (outcome, after) →
        (outcome = .ok true → network.overlay.hasSeen header.messageId receiver = false) ∧
        (network.overlay.hasSeen header.messageId receiver = false → outcome ≠ .ok false ∧
          network.Spreads message header receiver (some sender) (failureOf outcome) after) := by
  have wired : network.Wired := by
    rw [reached]
    exact (past_passes lived).preserves (motive := fun _ network => network.Wired)
      (Network.wired_new config latency genesis) fun _ _ lawful before => lawful.wired before
  refine ⟨?_, ?_⟩
  · intro origin outcome after flooded new
    unfold Network.flood at flooded
    split at flooded <;> rename_i forwarded <;> cases flooded <;>
      exact (Network.spreads_of_forwardFlood wired new forwarded).2
  · intro sender receiver outcome after received
    refine ⟨?_, fun new => Network.spreads_of_forwardFlood wired new received⟩
    rintro rfl
    cases Network.forwards_of_forwardFlood received with
    | passed planned sent =>
        rcases Network.planFlood_eq_ok planned with ⟨-, impossible⟩ | ⟨new, -⟩
        · cases impossible
        · exact new

/-- The third node passes a flood on to its other two peers, the second of which is down; the
first one cannot pass on a flood with this stagger. -/
theorem gossip_forwards_spaced :
    (∃ after order sends,
      gossip.built.receiveFlood ⟨9, 1, 2⟩ ⟨9, 1, 2⟩ 1 2 = (.ok true, after) ∧
      order.Perm [0, 3] ∧
      sends.flatten.map (·.1) = Letter.spaced (P := gossip) ⟨9, 1, 2⟩ ⟨9, 1, 2⟩ 0 2 order ∧
      gossip.built.Mails sends after ∧
      after.counters.messagesSent = 1 ∧ after.counters.droppedDown = 1) ∧
    ∃ after, gossip.built.flood ⟨9, 1, maxTime⟩ ⟨9, 1, maxTime⟩ 0 =
        (.error (.invalidParameter (.timeOverflow 1 maxTime)), after) ∧ after = gossip.built := by
  have received : gossip.built.receiveFlood ⟨9, 1, 2⟩ ⟨9, 1, 2⟩ 1 2 =
      (.ok true, (gossip.built.receiveFlood ⟨9, 1, 2⟩ ⟨9, 1, 2⟩ 1 2).2) :=
    Prod.ext (by decide +kernel) rfl
  have late : gossip.built.flood ⟨9, 1, maxTime⟩ ⟨9, 1, maxTime⟩ 0 =
      (.error (.invalidParameter (.timeOverflow 1 maxTime)), _) := rfl
  constructor
  · obtain ⟨-, receipts⟩ := Program.forwards_spaced gossip.behaviour {}
      (LatencyModel.fixed 2).latency () gossip.build 0 (List.append_nil _).symm gossip.built rfl
      ⟨9, 1, 2⟩ ⟨9, 1, 2⟩
    obtain ⟨new, spreads⟩ := receipts 1 2 _ _ received
    obtain ⟨order, sends, same, -, letters, mails⟩ := ((spreads (new rfl)).2.passedOn rfl).letters
    exact ⟨_, order, sends, received, same, letters, mails, by decide +kernel,
      by decide +kernel⟩
  · obtain ⟨floods, -⟩ := Program.forwards_spaced gossip.behaviour {}
      (LatencyModel.fixed 2).latency () gossip.build 0 (List.append_nil _).symm gossip.built rfl
      ⟨9, 1, maxTime⟩ ⟨9, 1, maxTime⟩
    exact ⟨_, late, ((floods 0 _ _ late rfl).refused (by decide)).2⟩

end Departures

end Simnet
