import Simnet.Proofs.Forwarding

namespace Simnet

/-! A node forwards a flood once. The ledger of the floods only grows, and only by the pair
that a call is for. A call that succeeds leaves its pair there, and a call whose pair is
there already does nothing. -/

section FloodOnce

variable {P : Protocol}

/-- The flood and the node that an operation is for, and what its forward answers. A flood
does not tell its caller whether it was the first. -/
def Op.forward? (network : Network P) : Op P → Option ((Nat × Nat) × Except Error Bool)
  | flood message header origin =>
      some ((header.messageId, origin), (network.forwardFlood message header origin none).1)
  | receiveFlood message header sender receiver =>
      some ((header.messageId, receiver),
        (network.receiveFlood message header sender receiver).1)
  | _ => none

namespace Moment

def forward? (moment : Moment P) : Option ((Nat × Nat) × Except Error Bool) :=
  match moment.happening with
  | .operated op => op.forward? moment.before
  | _ => none

def passesOn (messageId node : Nat) (moment : Moment P) : Bool :=
  match moment.forward? with
  | some (pair, .ok forwarded) => decide (pair = (messageId, node)) && forwarded
  | _ => false

end Moment

namespace Overlay

/-- The ledger of `overlay` with one more pair of a flood and a node. -/
def Enters (after : Overlay) (pair : Nat × Nat) (overlay : Overlay) : Prop :=
  ∀ messageId node, after.hasSeen messageId node = true ↔
    (messageId, node) = pair ∨ overlay.hasSeen messageId node = true

theorem enters_markSeen {overlay : Overlay} {messageId node : Nat}
    (listed : node < overlay.nodeCount) :
    (overlay.markSeen messageId node).Enters (messageId, node) overlay := by
  intro flood other
  rw [hasSeen_markSeen listed, Prod.mk.injEq]

theorem hasSeen_of_seen_eq {overlay after : Overlay} (same : after.seen = overlay.seen)
    (messageId node : Nat) : after.hasSeen messageId node = overlay.hasSeen messageId node := by
  unfold hasSeen seenBits?
  rw [same]

end Overlay

namespace Network

variable {network after : Network P} {message : P.Message} {header : FloodHeader}
variable {messageId node : Nat} {source : Option Nat} {outcome : Except Error Bool}

structure HasSeen (network : Network P) (messageId node : Nat) : Prop where
  known : node < network.nodeCount
  seen : network.overlay.hasSeen messageId node = true

theorem HasSeen.forwardFlood (has : network.HasSeen header.messageId node)
    (message : P.Message) (source : Option Nat) :
    network.forwardFlood message header node source = (.ok false, network) := by
  obtain ⟨record, found⟩ := exists_node_of_known has.known
  have ignored : network.planFlood header node source = .ok none := by
    simp [planFlood, found, has.seen]
  simp [Network.forwardFlood, ignored]

theorem seen_of_forwardFlood
    (forwarded : network.forwardFlood message header node source = (outcome, after)) :
    after.overlay.seen = network.overlay.seen ∨
      after.overlay.Enters (header.messageId, node) network.overlay := by
  cases forwards_of_forwardFlood forwarded with
  | refused _ | ignored _ => exact .inl rfl
  | passed planned sent | broken planned sent =>
      rw [(sameLayers_sendCopies sent).overlay]
      exact .inr (Overlay.enters_markSeen (listed_of_planFlood planned))

theorem hasSeen_of_forwardFlood {passed : Bool}
    (forwarded : network.forwardFlood message header node source = (.ok passed, after)) :
    after.HasSeen header.messageId node := by
  cases forwards_of_forwardFlood forwarded with
  | ignored planned =>
      rcases planFlood_eq_ok planned with ⟨seen, -⟩ | ⟨-, _, impossible⟩
      · exact ⟨known_of_planFlood planned, seen⟩
      · cases impossible
  | passed planned sent =>
      -- The copies are sent after the mark is set, and sending leaves the ledger alone.
      have changes : Changes False network after := changes_forwardFlood forwarded
      obtain ⟨pushes, effect⟩ := changes.effect
      refine ⟨Nat.lt_of_lt_of_le (known_of_planFlood planned) effect.growth, ?_⟩
      rw [(sameLayers_sendCopies sent).overlay]
      have listed := listed_of_planFlood planned
      exact (Overlay.hasSeen_markSeen listed _ _).mpr (.inl ⟨rfl, rfl⟩)

end Network

namespace Op

variable {network after : Network P} {op : Op P} {answer : op.Answer}

theorem seen_perform (quiet : op.isRun = false) (other : op.forward? network = none)
    (performed : op.perform idle network = some (answer, after)) :
    after.overlay.seen = network.overlay.seen := by
  cases op with
  | addNode info state =>
      rcases Network.addNode_cases (Option.some.inj performed) with rfl | ⟨-, -, -, rfl⟩ <;> rfl
  | setPeers config =>
      have built := Option.some.inj performed
      unfold Network.setPeers at built
      split at built <;> cases built
      · rfl
      · exact Overlay.seen_build config network.overlay network.rng
  | createLink first second =>
      have linked := Option.some.inj performed
      unfold Network.createLink at linked
      split at linked <;> cases linked <;> rfl
  | removeLink first second =>
      have removed := Option.some.inj performed
      unfold Network.removeLink at removed
      split at removed <;> cases removed <;> rfl
  | createBlock proposal =>
      rw [Network.overlay_createBlock (Option.some.inj performed)]
  | offerBlock receiver block =>
      rw [Network.overlay_offerBlock (Option.some.inj performed)]
  | flood _ _ _ | receiveFlood _ _ _ _ => cases other
  | _ => rw [(sameLayers_perform quiet rfl performed).overlay]

theorem forwardFlood_of_forward? {messageId node : Nat} {outcome : Except Error Bool}
    (forwards : op.forward? network = some ((messageId, node), outcome))
    (performed : op.perform idle network = some (answer, after)) :
    ∃ message header source, header.messageId = messageId ∧
      network.forwardFlood message header node source = (outcome, after) := by
  cases op with
  | flood message header origin =>
      cases forwards
      refine ⟨message, header, none, rfl, ?_⟩
      have flooded := Option.some.inj performed
      unfold Network.flood at flooded
      split at flooded <;> rename_i forwarded <;> cases flooded <;> rw [forwarded]
  | receiveFlood message header sender receiver =>
      cases forwards
      have received : network.receiveFlood message header sender node = (answer, after) :=
        Option.some.inj performed
      refine ⟨message, header, some sender, rfl, ?_⟩
      rw [received]
      exact received
  | _ => cases forwards

end Op

/-! The calls of a life -/

variable {behaviour : Behaviour P} {good : Op P → Prop} {moment : Moment P}
variable {messageId node : Nat}

namespace Moment

theorem Lawful.forwardFlood {outcome : Except Error Bool}
    (lawful : moment.Lawful behaviour good)
    (forwards : moment.forward? = some ((messageId, node), outcome)) :
    ∃ message header source, header.messageId = messageId ∧
      moment.before.forwardFlood message header node source = (outcome, moment.after) := by
  cases lawful with
  | operated quiet _ performed => exact Op.forwardFlood_of_forward? forwards performed
  | began _ | took _ | rearmed _ _ _ | halted _ | finished _ => cases forwards

theorem Lawful.seen (lawful : moment.Lawful behaviour good) :
    moment.after.overlay.seen = moment.before.overlay.seen ∨
      ∃ pair outcome, moment.forward? = some (pair, outcome) ∧
        moment.after.overlay.Enters pair moment.before.overlay := by
  cases forwards : moment.forward? with
  | none =>
      left
      cases lawful with
      | operated quiet _ performed => exact Op.seen_perform quiet forwards performed
      | began started =>
          obtain ⟨-, -, rfl⟩ := Network.start_eq_ok started
          rfl
      | took popped => exact congrArg Overlay.seen (Network.overlay_countEvent ..)
      | rearmed _ _ _ | halted _ | finished _ => rfl
  | some call =>
      obtain ⟨⟨messageId, node⟩, outcome⟩ := call
      obtain ⟨message, header, source, rfl, forwarded⟩ := lawful.forwardFlood forwards
      rcases Network.seen_of_forwardFlood forwarded with same | entered
      · exact .inl same
      · exact .inr ⟨_, outcome, rfl, entered⟩

theorem Lawful.hasSeen_mono (lawful : moment.Lawful behaviour good)
    (seen : moment.before.overlay.hasSeen messageId node = true) :
    moment.after.overlay.hasSeen messageId node = true := by
  rcases lawful.seen with same | ⟨pair, outcome, -, entered⟩
  · rw [Overlay.hasSeen_of_seen_eq same]
    exact seen
  · exact (entered messageId node).mpr (.inr seen)

theorem Lawful.keeps_hasSeen (lawful : moment.Lawful behaviour good)
    (has : moment.before.HasSeen messageId node) : moment.after.HasSeen messageId node where
  known := Nat.lt_of_lt_of_le has.known lawful.nodeCount_mono
  seen := lawful.hasSeen_mono has.seen

theorem Lawful.call_of_seen (lawful : moment.Lawful behaviour good)
    (new : moment.before.overlay.hasSeen messageId node = false)
    (seen : moment.after.overlay.hasSeen messageId node = true) :
    ∃ outcome, moment.forward? = some ((messageId, node), outcome) := by
  rcases lawful.seen with same | ⟨pair, outcome, call, entered⟩
  · rw [Overlay.hasSeen_of_seen_eq same, new] at seen
    cases seen
  · rcases (entered messageId node).mp seen with rfl | old
    · exact ⟨outcome, call⟩
    · rw [new] at old
      cases old

theorem Lawful.hasSeen_of_call {passed : Bool} (lawful : moment.Lawful behaviour good)
    (call : moment.forward? = some ((messageId, node), .ok passed)) :
    moment.after.HasSeen messageId node := by
  obtain ⟨message, header, source, rfl, forwarded⟩ := lawful.forwardFlood call
  exact Network.hasSeen_of_forwardFlood forwarded

theorem Lawful.ignores (lawful : moment.Lawful behaviour good)
    (has : moment.before.HasSeen messageId node) {outcome : Except Error Bool}
    (call : moment.forward? = some ((messageId, node), outcome)) :
    outcome = .ok false ∧ moment.after = moment.before := by
  obtain ⟨message, header, source, rfl, forwarded⟩ := lawful.forwardFlood call
  rw [has.forwardFlood message source] at forwarded
  obtain ⟨rfl, same⟩ := Prod.mk.inj forwarded
  exact ⟨rfl, same.symm⟩

theorem forward?_of_passesOn (passes : moment.passesOn messageId node = true) :
    moment.forward? = some ((messageId, node), .ok true) := by
  unfold passesOn at passes
  split at passes
  · rename_i pair forwarded call
    simp only [Bool.and_eq_true, decide_eq_true_eq] at passes
    obtain ⟨rfl, rfl⟩ := passes
    exact call
  · cases passes

end Moment

/-- What the calls for one flood and one node do in the course of a history. -/
structure ForwardedOnce (messageId node : Nat) (start : Network P)
    (history : List (Moment P)) : Prop where
  once : history.countP (Moment.passesOn messageId node) ≤ 1
  ignored : history.Pairwise fun earlier later =>
    (∃ passed, earlier.forward? = some ((messageId, node), .ok passed)) →
      ∀ outcome, later.forward? = some ((messageId, node), outcome) →
        outcome = .ok false ∧ later.after = later.before
  lasting : ∀ past rest, history = past ++ rest →
    (stateAfter start past).overlay.hasSeen messageId node = true →
      ∀ moment ∈ rest, moment.after.overlay.hasSeen messageId node = true
  entered : ∀ moment ∈ history, moment.before.overlay.hasSeen messageId node = false →
    moment.after.overlay.hasSeen messageId node = true →
      ∃ outcome, moment.forward? = some ((messageId, node), outcome)

theorem countP_le_one {α : Type} {marked : α → Bool} {items : List α}
    (apart : items.Pairwise fun first second => marked first = true → marked second = false) :
    items.countP marked ≤ 1 := by
  induction apart with
  | nil => exact Nat.zero_le 1
  | @cons first rest later _ induction =>
      cases mark : marked first with
      | false =>
          rw [List.countP_cons_of_neg (by simp [mark])]
          exact induction
      | true =>
          have none : rest.countP marked = 0 := by
            rw [List.countP_eq_zero]
            intro second member
            simp [later second member mark]
          rw [List.countP_cons_of_pos mark, none]

variable {start stop : Network P} {history : List (Moment P)}

theorem Passes.calls_ignored (passes : Passes (Moment.Lawful behaviour good) start history stop)
    (messageId node : Nat) :
    history.Pairwise fun earlier later =>
      (∃ passed, earlier.forward? = some ((messageId, node), .ok passed)) →
        ∀ outcome, later.forward? = some ((messageId, node), outcome) →
          outcome = .ok false ∧ later.after = later.before := by
  apply passes.pairwise (motive := fun network => network.HasSeen messageId node)
  · rintro moment lawful ⟨passed, call⟩
    exact lawful.hasSeen_of_call call
  · exact fun moment lawful has => lawful.keeps_hasSeen has
  · exact fun moment lawful has outcome call => lawful.ignores has call

theorem Passes.forwardedOnce
    (passes : Passes (Moment.Lawful behaviour good) start history stop)
    (messageId node : Nat) : ForwardedOnce messageId node start history where
  once := by
    apply countP_le_one
    apply (passes.calls_ignored messageId node).imp
    intro earlier later ignores first
    by_contra second
    have call := Moment.forward?_of_passesOn (by simpa using second)
    obtain ⟨impossible, -⟩ := ignores ⟨true, Moment.forward?_of_passesOn first⟩ _ call
    cases impossible
  ignored := passes.calls_ignored messageId node
  lasting := by
    intro past rest lived seen
    rw [lived] at passes
    obtain ⟨middle, early, late⟩ := passes.split
    rw [← early.stop_eq] at seen
    refine late.forall_mem (motive := fun network => network.overlay.hasSeen messageId node)
      seen ?_ ?_
    · exact fun moment lawful => lawful.hasSeen_mono
    · exact fun moment lawful => lawful.hasSeen_mono
  entered := fun moment member => (passes.lawful moment member).call_of_seen

/-- In every history each node passes each flood on at most once. After a call for the two that
succeeds, all others for them succeed without changing anything. -/
theorem Program.forwarded_once {α : Type} (behaviour : Behaviour P) (fuel : Nat)
    (life : Program P α) (start : Network P) (messageId node : Nat) :
    ForwardedOnce messageId node start
      (life.record (Network.recordRun behaviour fuel) start).history := by
  have passes : Passes (Moment.Lawful behaviour fun _ => True) start
      (life.record (Network.recordRun behaviour fuel) start).history _ :=
    past_passes (List.append_nil _).symm
  exact passes.forwardedOnce messageId node

def gossip.insist : Program gossip (Except Error Unit) := do
  let _ ← build
  let _ ← Program.perform (P := gossip) (.flood ⟨7, 1, 0⟩ ⟨7, 1, 0⟩ 0)
  let _ ← Program.perform (.runUntil 20)
  Program.perform (P := gossip) (.flood ⟨7, 1, 0⟩ ⟨7, 1, 0⟩ 1)

example :
    let history := (gossip.insist.record (Network.recordRun gossip.behaviour 9)
      (.new {} (LatencyModel.fixed 2).latency ())).history
    history.countP (fun moment => moment.forward?.map (·.1) = some (7, 1)) = 3 ∧
      history.countP (Moment.passesOn 7 1) = 1 := by
  decide +kernel

end FloodOnce

end Simnet
