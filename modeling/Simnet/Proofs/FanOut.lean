import Simnet.Proofs.Alignment
import Simnet.Proofs.Letters

namespace Simnet

/-! Sends to several receivers. Such a send decides on all its receivers before it commits
to any of them, and single sends decide and commit in turn. Both do the same as long as a
delay depends on nothing that a commitment changes. A receiver that is down or separated
from the sender draws nothing, so that it could as well be left out. -/

section FanOut

variable {P : Protocol}

/-- A provided model looks only at where nodes are, and not at what they are counted. -/
theorem LatencyModel.delay_congr (model : LatencyModel)
    {sender receiver otherSender otherReceiver : NodeInfo}
    (senders : otherSender.location = sender.location)
    (receivers : otherReceiver.location = receiver.location) (rng : Rng) :
    model.delay otherSender otherReceiver rng = model.delay sender receiver rng := by
  have steady : ∀ distances : DistanceModel,
      distances.delay otherSender otherReceiver rng = distances.delay sender receiver rng := by
    intro distances
    unfold DistanceModel.delay DistanceModel.steady NodeInfo.distance
    rw [senders, receivers]
  cases model with
  | none | fixed _ | uniform _ => rfl
  | distance distances => exact steady distances
  | cloudRegions percent fallback | cities percent fallback =>
      simp only [LatencyModel.delay, senders, receivers, steady]

namespace Network

variable {network middle after other : Network P} {message : P.Message}
variable {origin sender : Nat} {receivers rest : List Nat}

/-! Decisions -/

theorem checkSend_eq_ok_iff :
    network.checkSend origin sender receivers = .ok () ↔
      network.time ≤ origin ∧ ∀ id ∈ sender :: receivers, id < network.nodeCount :=
  ⟨checkSend_ok, fun ⟨notPast, known⟩ => checkSend_of_known notPast known⟩

theorem checkSend_cons_eq_ok_iff {receiver : Nat} :
    network.checkSend origin sender (receiver :: rest) = .ok () ↔
      network.checkSend origin sender [receiver] = .ok () ∧
        network.checkSend origin sender rest = .ok () := by
  simp only [checkSend_eq_ok_iff, List.forall_mem_cons]
  tauto

theorem sendToMany_eq_ok_iff :
    network.sendToMany message origin sender receivers = (.ok (), after) ↔
      network.checkSend origin sender receivers = .ok () ∧
      ∃ decisions rng,
        network.fates origin sender receivers network.rng = .ok (decisions, rng) ∧
        after = decisions.foldl (commitFate message sender) { network with rng := rng } := by
  unfold sendToMany
  constructor
  · intro sent
    split at sent
    · cases sent
    · rename_i checked
      split at sent
      · cases sent
      · rename_i decisions rng decided
        cases sent
        exact ⟨checked, decisions, rng, decided, rfl⟩
  · rintro ⟨checked, decisions, rng, decided, rfl⟩
    rw [checked, decided]

theorem fates_cons_eq_ok_iff {receiver : Nat} {rng last : Rng}
    {decisions : List (Nat × Fate)} :
    network.fates origin sender (receiver :: rest) rng = .ok (decisions, last) ↔
      ∃ fate next later,
        network.fate origin sender receiver rng = .ok (fate, next) ∧
        network.fates origin sender rest next = .ok (later, last) ∧
        decisions = (receiver, fate) :: later := by
  rw [fates]
  constructor
  · intro decided
    split at decided
    · cases decided
    · rename_i fate next first
      split at decided
      · cases decided
      · rename_i later _ second
        cases decided
        exact ⟨fate, next, later, first, second, rfl⟩
  · rintro ⟨fate, next, later, first, second, rfl⟩
    simp only [first, second]

theorem commitFate_rng (message : P.Message) (sender : Nat) (network : Network P) (rng : Rng)
    (decision : Nat × Fate) :
    commitFate message sender { network with rng := rng } decision =
      { commitFate message sender network decision with rng := rng } := by
  obtain ⟨receiver, fate⟩ := decision
  cases fate <;> rfl

@[simp] theorem latency_commitFate (message : P.Message) (sender : Nat) (network : Network P)
    (decision : Nat × Fate) :
    (commitFate message sender network decision).latency = network.latency := by
  obtain ⟨receiver, fate⟩ := decision
  cases fate <;> rfl

theorem node_of_cores (same : after.cores = network.cores) (id : Nat) :
    (network.node id = .error (.unknownNode id) ∧ after.node id = .error (.unknownNode id)) ∨
      ∃ first second, network.node id = .ok first ∧ after.node id = .ok second ∧
        second.core = first.core := by
  have cores : (after.node? id).map Node.core = (network.node? id).map Node.core := by
    have entries := congrArg (fun cores => cores[id]?) same
    rwa [Network.cores, Network.cores, List.getElem?_map, List.getElem?_map] at entries
  unfold Network.node
  cases found : network.node? id with
  | none =>
      rw [found, Option.map_none, Option.map_eq_none_iff] at cores
      simp [cores]
  | some first =>
      rw [found, Option.map_some, Option.map_eq_some_iff] at cores
      obtain ⟨second, found, same⟩ := cores
      exact .inr ⟨first, second, rfl, by rw [found], same⟩

theorem fate_of_cores {model : LatencyModel} (provided : network.latency = model.latency)
    (alike : network.Alike after) (same : after.cores = network.cores) :
    after.fate = network.fate := by
  funext origin source target rng
  unfold Network.fate
  rcases node_of_cores same source with
    ⟨unknown, unknownAfter⟩ | ⟨first, firstAfter, found, foundAfter, firstCore⟩
  · rw [unknown, unknownAfter]
  rcases node_of_cores same target with
    ⟨unknown, unknownAfter⟩ | ⟨second, secondAfter, hit, hitAfter, secondCore⟩
  · rw [found, foundAfter, unknown, unknownAfter]
  have firstDown : firstAfter.info.down = first.info.down :=
    congrArg (fun node => node.info.down) firstCore
  have secondDown : secondAfter.info.down = second.info.down :=
    congrArg (fun node => node.info.down) secondCore
  have firstPlace : firstAfter.info.location = first.info.location :=
    congrArg (fun node => node.info.location) firstCore
  have secondPlace : secondAfter.info.location = second.info.location :=
    congrArg (fun node => node.info.location) secondCore
  have delays : after.latency.delay firstAfter.info secondAfter.info rng =
      network.latency.delay first.info second.info rng := by
    rw [alike.latency, provided]
    exact model.delay_congr firstPlace secondPlace rng
  simp only [found, foundAfter, hit, hitAfter, firstDown, secondDown, delays, alike.config,
    alike.isPartitioned]

theorem fates_of_fate (same : after.fate = network.fate) (origin sender : Nat)
    (receivers : List Nat) (rng : Rng) :
    after.fates origin sender receivers rng = network.fates origin sender receivers rng := by
  induction receivers generalizing rng with
  | nil => rfl
  | cons receiver rest induction =>
      unfold fates
      rw [same]
      cases network.fate origin sender receiver rng with
      | error error => rfl
      | ok decided =>
          dsimp only
          rw [induction]

theorem send_eq_ok_iff {receiver : Nat} :
    network.send message origin sender receiver = (.ok (), after) ↔
      network.checkSend origin sender [receiver] = .ok () ∧
      ∃ fate rng, network.fate origin sender receiver network.rng = .ok (fate, rng) ∧
        after = commitFate message sender { network with rng := rng } (receiver, fate) := by
  unfold send
  rw [sendToMany_eq_ok_iff]
  refine and_congr_right fun _ => ?_
  constructor
  · rintro ⟨decisions, rng, decided, rfl⟩
    obtain ⟨fate, next, later, first, second, rfl⟩ := fates_cons_eq_ok_iff.mp decided
    cases second
    exact ⟨fate, rng, first, rfl⟩
  · rintro ⟨fate, rng, decided, rfl⟩
    exact ⟨[(receiver, fate)], rng,
      fates_cons_eq_ok_iff.mpr ⟨fate, rng, [], decided, rfl, rfl⟩, rfl⟩

/-! Sends in turn -/

section Provided

variable {model : LatencyModel} (provided : network.latency = model.latency)
include provided

theorem fate_commitFate (message : P.Message) (known : sender < network.nodeCount) (rng : Rng)
    (decision : Nat × Fate) :
    (commitFate message sender { network with rng := rng } decision).fate = network.fate := by
  have settled := { network with rng := rng }.settled_commitFate message 0 decision.1 decision.2
    known
  have prepared : network.Alike { network with rng := rng } := .of_prepared rfl
  exact fate_of_cores provided (prepared.trans settled.alike)
    (cores_commitFate message sender { network with rng := rng } decision)

theorem sendToMany_commitFate_eq_ok_iff (known : sender < network.nodeCount) {next : Rng}
    {decision : Nat × Fate} :
    (commitFate message sender { network with rng := next } decision).sendToMany message origin
        sender rest = (.ok (), after) ↔
      network.checkSend origin sender rest = .ok () ∧
      ∃ later last, network.fates origin sender rest next = .ok (later, last) ∧
        after = later.foldl (commitFate message sender)
          (commitFate message sender { network with rng := last } decision) := by
  have checks : (commitFate message sender { network with rng := next } decision).checkSend origin
      sender rest = .ok () ↔ network.checkSend origin sender rest = .ok () := by
    rw [checkSend_eq_ok_iff, checkSend_eq_ok_iff, time_commitFate, nodeCount_commitFate]
    rfl
  have passed : (commitFate message sender { network with rng := next } decision).rng = next :=
    rng_commitFates message sender [decision] { network with rng := next }
  rw [sendToMany_eq_ok_iff, checks, passed]
  simp only [fates_of_fate (fate_commitFate provided message known next decision),
    ← commitFate_rng]

theorem sendToMany_cons_eq_ok_iff {receiver : Nat} :
    network.sendToMany message origin sender (receiver :: rest) = (.ok (), after) ↔
      ∃ middle, network.send message origin sender receiver = (.ok (), middle) ∧
        middle.sendToMany message origin sender rest = (.ok (), after) := by
  constructor
  · intro sent
    obtain ⟨checked, decisions, last, decided, rfl⟩ := sendToMany_eq_ok_iff.mp sent
    obtain ⟨fate, next, later, first, second, rfl⟩ := fates_cons_eq_ok_iff.mp decided
    obtain ⟨alone, others⟩ := checkSend_cons_eq_ok_iff.mp checked
    have known := (checkSend_ok checked).2 sender List.mem_cons_self
    exact ⟨_, send_eq_ok_iff.mpr ⟨alone, fate, next, first, rfl⟩,
      (sendToMany_commitFate_eq_ok_iff provided known).mpr ⟨others, later, last, second, rfl⟩⟩
  · rintro ⟨middle, sent, others⟩
    obtain ⟨alone, fate, next, first, rfl⟩ := send_eq_ok_iff.mp sent
    have known := (checkSend_ok alone).2 sender List.mem_cons_self
    obtain ⟨checked, later, last, second, rfl⟩ :=
      (sendToMany_commitFate_eq_ok_iff provided known).mp others
    exact sendToMany_eq_ok_iff.mpr ⟨checkSend_cons_eq_ok_iff.mpr ⟨alone, checked⟩,
      (receiver, fate) :: later, last,
      fates_cons_eq_ok_iff.mpr ⟨fate, next, later, first, second, rfl⟩, rfl⟩

theorem sendToMany_eq_ok_iff_sendStaggered (someone : receivers ≠ []) :
    network.sendToMany message origin sender receivers = (.ok (), after) ↔
      sendStaggered message sender 0 origin receivers network = (.ok (), after) := by
  induction receivers generalizing network with
  | nil => exact absurd rfl someone
  | cons receiver rest induction =>
      have split : sendStaggered message sender 0 origin (receiver :: rest) network =
            (.ok (), after) ↔
          ∃ middle, network.send message origin sender receiver = (.ok (), middle) ∧
            sendStaggered message sender 0 origin rest middle = (.ok (), after) := by
        rw [sendStaggered]
        cases network.send message origin sender receiver with
        | mk outcome middle =>
            cases outcome with
            | error error => simp
            | ok _ => simp
      rw [split]
      cases rest with
      | nil => simp [send, sendStaggered]
      | cons next others =>
          rw [sendToMany_cons_eq_ok_iff provided]
          refine exists_congr fun middle => and_congr_right fun sent => ?_
          obtain ⟨-, fate, rng, -, rfl⟩ := send_eq_ok_iff.mp sent
          have still : (commitFate message sender { network with rng := rng }
              (receiver, fate)).latency = model.latency := (latency_commitFate ..).trans provided
          exact induction still (List.cons_ne_nil next others)

end Provided

/-- A send to several receivers succeeds if and only if single sends to them in the same order
do, and leaves the same network. -/
theorem sendToMany_inTurn {model : LatencyModel} (provided : network.latency = model.latency)
    (message : P.Message) (origin sender : Nat) (someone : receivers ≠ []) :
    ((network.sendToMany message origin sender receivers).1 = .ok () ↔
      (sendStaggered message sender 0 origin receivers network).1 = .ok ()) ∧
    ((network.sendToMany message origin sender receivers).1 = .ok () →
      network.sendToMany message origin sender receivers =
        sendStaggered message sender 0 origin receivers network) := by
  have alike : ∀ after, network.sendToMany message origin sender receivers = (.ok (), after) ↔
      sendStaggered message sender 0 origin receivers network = (.ok (), after) :=
    fun after => sendToMany_eq_ok_iff_sendStaggered provided someone
  have forward : (network.sendToMany message origin sender receivers).1 = .ok () →
      sendStaggered message sender 0 origin receivers network =
        network.sendToMany message origin sender receivers := fun sent =>
    ((alike _).mp (Prod.ext sent rfl)).trans (Prod.ext sent.symm rfl)
  refine ⟨⟨fun sent => (congrArg Prod.fst (forward sent)).trans sent, fun sent => ?_⟩,
    fun sent => (forward sent).symm⟩
  exact congrArg Prod.fst ((alike _).mpr (Prod.ext sent rfl))

/-! Receivers that are out of reach -/

/-- What keeps a message from its receiver before a delay is drawn. -/
def barrier? (network : Network P) (sender receiver : Nat) : Option Fate :=
  if ! (network.isLive sender && network.isLive receiver) then some .down
  else if network.isPartitioned sender receiver then some .partitioned
  else none

def withDropped (network : Network P) (down partitioned : Nat) : Network P :=
  { network with
    counters := { network.counters with
      droppedDown := network.counters.droppedDown + down
      droppedPartition := network.counters.droppedPartition + partitioned } }

theorem withDropped_add (network : Network P) (down partitioned moreDown morePartitioned : Nat) :
    (network.withDropped down partitioned).withDropped moreDown morePartitioned =
      network.withDropped (down + moreDown) (partitioned + morePartitioned) := by
  simp only [withDropped, Nat.add_assoc]

theorem commitFate_withDropped (message : P.Message) (sender : Nat) (network : Network P)
    (down partitioned : Nat) (decision : Nat × Fate) :
    commitFate message sender (network.withDropped down partitioned) decision =
      (commitFate message sender network decision).withDropped down partitioned := by
  obtain ⟨receiver, fate⟩ := decision
  cases fate with
  | down | partitioned => simp only [commitFate, withDropped, Nat.add_right_comm]
  | discarded | deliver arrival => rfl

theorem commitFates_withDropped (message : P.Message) (sender : Nat)
    (decisions : List (Nat × Fate)) (network : Network P) (down partitioned : Nat) :
    decisions.foldl (commitFate message sender) (network.withDropped down partitioned) =
      (decisions.foldl (commitFate message sender) network).withDropped down partitioned := by
  induction decisions generalizing network with
  | nil => rfl
  | cons decision rest induction =>
      rw [List.foldl_cons, List.foldl_cons, commitFate_withDropped, induction]

theorem fates_withDropped (network : Network P) (down partitioned origin sender : Nat)
    (receivers : List Nat) (rng : Rng) :
    (network.withDropped down partitioned).fates origin sender receivers rng =
      network.fates origin sender receivers rng := by
  have same : (network.withDropped down partitioned).fate = network.fate := rfl
  exact fates_of_fate same origin sender receivers rng

theorem fate_of_barrier {receiver : Nat} {fate : Fate} (senderKnown : sender < network.nodeCount)
    (receiverKnown : receiver < network.nodeCount)
    (barred : network.barrier? sender receiver = some fate) (origin : Nat) (rng : Rng) :
    network.fate origin sender receiver rng = .ok (fate, rng) := by
  obtain ⟨source, sourceFound⟩ := exists_node_of_known senderKnown
  obtain ⟨target, targetFound⟩ := exists_node_of_known receiverKnown
  have someone : (source.info.down || target.info.down) =
      ! (network.isLive sender && network.isLive receiver) := by
    rw [isLive_of_node sourceFound, isLive_of_node targetFound, ← Bool.not_or, Bool.not_not]
  simp only [Network.fate, sourceFound, targetFound, someone]
  unfold barrier? at barred
  split at barred
  · rename_i blocked
    cases barred
    rw [if_pos blocked]
  · rename_i unblocked
    split at barred
    · rename_i apart
      cases barred
      rw [if_neg unblocked, if_pos apart]
    · cases barred

theorem fate_of_barrier?_eq {receiver : Nat} {fate : Fate}
    (barred : network.barrier? sender receiver = some fate) :
    fate = .down ∨ fate = .partitioned := by
  unfold barrier? at barred
  split at barred
  · exact .inl (Option.some.inj barred).symm
  · split at barred
    · exact .inr (Option.some.inj barred).symm
    · cases barred

/-- Whatever barred receivers are left out, the others get the same fates and the generator
ends where it would have. -/
theorem fates_filter {keep : Nat → Bool} (senderKnown : sender < network.nodeCount)
    (known : ∀ id ∈ receivers, id < network.nodeCount)
    (barred : ∀ id ∈ receivers, keep id = false → network.barrier? sender id ≠ none)
    (origin : Nat) (rng : Rng) :
    network.fates origin sender (receivers.filter keep) rng =
      (network.fates origin sender receivers rng).map fun decided =>
        (decided.1.filter fun decision => keep decision.1, decided.2) := by
  induction receivers generalizing rng with
  | nil => rfl
  | cons receiver rest induction =>
      have others := induction (fun id member => known id (List.mem_cons_of_mem _ member))
        fun id member => barred id (List.mem_cons_of_mem _ member)
      cases kept : keep receiver with
      | true =>
          rw [List.filter_cons_of_pos kept, fates, fates]
          cases network.fate origin sender receiver rng with
          | error error => rfl
          | ok decided =>
              dsimp only
              rw [others]
              cases network.fates origin sender rest decided.2 with
              | error error => rfl
              | ok later => simp [Except.map, kept]
      | false =>
          obtain ⟨fate, barrier⟩ :=
            Option.ne_none_iff_exists'.mp (barred receiver List.mem_cons_self kept)
          have decided := fate_of_barrier senderKnown (known receiver List.mem_cons_self) barrier
            origin rng
          rw [List.filter_cons_of_neg (by simp [kept]), fates, decided, others]
          dsimp only
          cases network.fates origin sender rest rng with
          | error error => rfl
          | ok later => simp [Except.map, kept]

theorem barrier_of_fates (senderKnown : sender < network.nodeCount)
    (known : ∀ id ∈ receivers, id < network.nodeCount) {rng last : Rng}
    {decisions : List (Nat × Fate)}
    (decided : network.fates origin sender receivers rng = .ok (decisions, last)) :
    ∀ decision ∈ decisions, ∀ fate,
      network.barrier? sender decision.1 = some fate → decision.2 = fate := by
  induction receivers generalizing rng decisions with
  | nil =>
      cases decided
      exact fun _ member => nomatch member
  | cons receiver rest induction =>
      obtain ⟨fate, next, later, first, second, rfl⟩ := fates_cons_eq_ok_iff.mp decided
      intro decision member barrier barred
      rcases List.mem_cons.mp member with rfl | member
      · have forced := fate_of_barrier senderKnown (known receiver List.mem_cons_self) barred
          origin rng
        rw [first] at forced
        cases forced
        rfl
      · exact induction (fun id member => known id (List.mem_cons_of_mem _ member)) second
          decision member barrier barred

theorem commitFates_filter {keep : Nat → Bool} (message : P.Message) (sender : Nat)
    {decisions : List (Nat × Fate)} (start : Network P)
    (barred : ∀ decision ∈ decisions, keep decision.1 = false →
      decision.2 = .down ∨ decision.2 = .partitioned) :
    decisions.foldl (commitFate message sender) start =
      ((decisions.filter fun decision => keep decision.1).foldl (commitFate message sender)
        start).withDropped
        (decisions.countP fun decision => ! keep decision.1 && decision.2 = .down)
        (decisions.countP fun decision => ! keep decision.1 && decision.2 = .partitioned) := by
  induction decisions generalizing start with
  | nil => rfl
  | cons decision rest induction =>
      have others := fun start => induction start fun decision member =>
        barred decision (List.mem_cons_of_mem _ member)
      obtain ⟨receiver, fate⟩ := decision
      cases kept : keep receiver with
      | true => simp [kept, others (commitFate message sender start (receiver, fate))]
      | false =>
          rw [List.foldl_cons, List.filter_cons_of_neg (by simp [kept]), others]
          rcases barred _ List.mem_cons_self kept with down | partitioned
          · dsimp only at down
            subst down
            have counted : commitFate message sender start (receiver, .down) =
              start.withDropped 1 0 := rfl
            rw [counted, commitFates_withDropped, withDropped_add]
            simp [kept, Nat.add_comm]
          · dsimp only at partitioned
            subst partitioned
            have counted : commitFate message sender start (receiver, .partitioned) =
              start.withDropped 0 1 := rfl
            rw [counted, commitFates_withDropped, withDropped_add]
            simp [kept, Nat.add_comm]

theorem checkSend_of_receivers_known (origin sender : Nat)
    (known : ∀ id ∈ receivers, id < network.nodeCount) :
    network.checkSend origin sender receivers = network.checkSend origin sender [] := by
  have everyone : receivers.find? (fun id => (network.node? id).isNone) = none := by
    rw [List.find?_eq_none]
    intro id member unknown
    have beyond := node?_eq_none_iff.mp (Option.isNone_iff_eq_none.mp unknown)
    have inside := known id member
    omega
  unfold checkSend
  rw [List.find?_cons, List.find?_cons, everyone, List.find?_nil]

/-- Receivers that are known and out of reach may be left out of a send. It fails as it would
have, and if it succeeds then only the counts of refused sends tell. -/
theorem sendToMany_filter (keep : Nat → Bool) (message : P.Message) (origin sender : Nat)
    (known : ∀ id ∈ receivers, id < network.nodeCount)
    (barred : ∀ id ∈ receivers, keep id = false → network.barrier? sender id ≠ none) :
    (∀ error after,
      network.sendToMany message origin sender (receivers.filter keep) = (.error error, after) →
      network.sendToMany message origin sender receivers = (.error error, after)) ∧
    (∀ after,
      network.sendToMany message origin sender (receivers.filter keep) = (.ok (), after) →
      network.sendToMany message origin sender receivers = (.ok (), after.withDropped
        (receivers.countP fun id => ! keep id && network.barrier? sender id = some .down)
        (receivers.countP fun id =>
          ! keep id && network.barrier? sender id = some .partitioned))) := by
  have fewer : ∀ id ∈ receivers.filter keep, id < network.nodeCount :=
    fun id member => known id (List.mem_of_mem_filter member)
  unfold sendToMany
  rw [checkSend_of_receivers_known origin sender known,
    checkSend_of_receivers_known origin sender fewer]
  cases checked : network.checkSend origin sender [] with
  | error error => exact ⟨fun _ _ refused => refused, fun _ refused => nomatch refused⟩
  | ok _ =>
      have senderKnown := (checkSend_ok checked).2 sender List.mem_cons_self
      rw [fates_filter senderKnown known barred]
      cases decided : network.fates origin sender receivers network.rng with
      | error error => exact ⟨fun _ _ refused => refused, fun _ refused => nomatch refused⟩
      | ok found =>
          obtain ⟨decisions, last⟩ := found
          obtain ⟨rfl, -⟩ := fates_spec decided
          have forced : ∀ decision ∈ decisions, keep decision.1 = false →
              network.barrier? sender decision.1 = some decision.2 := by
            intro decision member left
            obtain ⟨fate, barrier⟩ :=
              Option.ne_none_iff_exists'.mp (barred _ (List.mem_map_of_mem member) left)
            rw [barrier, barrier_of_fates senderKnown known decided decision member fate barrier]
          have counted : ∀ fate : Fate,
              (decisions.countP fun decision => ! keep decision.1 && decision.2 = fate) =
                (decisions.map (·.1)).countP fun id =>
                  ! keep id && network.barrier? sender id = some fate := by
            intro fate
            rw [List.countP_map]
            refine List.countP_congr fun decision member => ?_
            cases kept : keep decision.1 with
            | true => simp [kept]
            | false => simp [kept, forced decision member kept]
          refine ⟨fun _ _ refused => (nomatch (congrArg Prod.fst refused)), fun after sent => ?_⟩
          cases sent
          rw [← counted, ← counted]
          exact congrArg (Prod.mk _) (commitFates_filter message sender _
            fun decision member left => fate_of_barrier?_eq (forced decision member left))

theorem barrier?_eq (network : Network P) (sender receiver : Nat) :
    decide (network.barrier? sender receiver = none) =
        (network.isLive sender && network.isLive receiver &&
          ! network.isPartitioned sender receiver) ∧
      decide (network.barrier? sender receiver = some .down) =
        (! (network.isLive sender && network.isLive receiver)) ∧
      decide (network.barrier? sender receiver = some .partitioned) =
        (network.isLive sender && network.isLive receiver &&
          network.isPartitioned sender receiver) := by
  unfold barrier?
  cases network.isLive sender <;> cases network.isLive receiver <;>
    cases network.isPartitioned sender receiver <;> decide

theorem Registered.liveNodeIds_eq (registered : network.Registered) :
    network.liveNodeIds = (List.range network.nodeCount).filter network.isLive := by
  refine (registered.ids_filter fun node => ! node.info.down).trans (List.filter_congr ?_)
  intro id _
  unfold isLive
  cases network.node? id with
  | none => rfl
  | some node => rfl

theorem sendToMany_reached
    (sent : network.sendToMany message origin sender receivers = (.ok (), after)) :
    ∃ other,
      network.sendToMany message origin sender (receivers.filter fun id =>
          network.isLive sender && network.isLive id &&
            ! network.isPartitioned sender id) = (.ok (), other) ∧
      after = other.withDropped
        (receivers.countP fun id => ! (network.isLive sender && network.isLive id))
        (receivers.countP fun id => network.isLive sender && network.isLive id &&
          network.isPartitioned sender id) := by
  obtain ⟨checked, -⟩ := sendToMany_eq_ok_iff.mp sent
  have known : ∀ id ∈ receivers, id < network.nodeCount :=
    fun id member => (checkSend_ok checked).2 id (List.mem_cons_of_mem sender member)
  obtain ⟨fails, succeeds⟩ :=
    sendToMany_filter (fun id => network.barrier? sender id = none) message origin sender known
      fun id _ barred => of_decide_eq_false barred
  have excluded : ∀ id fate, (! decide (network.barrier? sender id = none) &&
      decide (network.barrier? sender id = some fate)) =
        decide (network.barrier? sender id = some fate) := by
    intro id fate
    cases network.barrier? sender id <;> simp
  simp only [excluded] at succeeds
  simp only [fun id => (network.barrier?_eq sender id).1,
    fun id => (network.barrier?_eq sender id).2.1,
    fun id => (network.barrier?_eq sender id).2.2] at fails succeeds
  match ran : network.sendToMany message origin sender (receivers.filter fun id =>
      network.isLive sender && network.isLive id && ! network.isPartitioned sender id) with
  | (.error error, other) =>
      have failed := fails error other ran
      rw [sent] at failed
      cases failed
  | (.ok (), other) =>
      have succeeded := succeeds other ran
      rw [sent] at succeeded
      exact ⟨other, rfl, congrArg Prod.snd succeeded⟩

theorem sendAll_others (registered : network.Registered) (message : P.Message)
    (origin sender : Nat) :
    (∀ error after, network.sendAll message origin sender = (.error error, after) →
      network.sendToMany message origin sender
        ((List.range network.nodeCount).filter fun id => id ≠ sender) = (.error error, after)) ∧
    (∀ after, network.sendAll message origin sender = (.ok (), after) →
      network.sendToMany message origin sender
          ((List.range network.nodeCount).filter fun id => id ≠ sender) =
        (.ok (), after.withDropped
          (((List.range network.nodeCount).filter fun id => id ≠ sender).countP
            fun id => ! network.isLive id) 0)) := by
  have known : ∀ id ∈ (List.range network.nodeCount).filter (fun id => id ≠ sender),
      id < network.nodeCount :=
    fun id member => List.mem_range.mp (List.mem_of_mem_filter member)
  have blocked : ∀ id, network.isLive id = false → network.barrier? sender id = some .down := by
    intro id dead
    rw [barrier?, dead, Bool.and_false]
    rfl
  obtain ⟨fails, succeeds⟩ := sendToMany_filter network.isLive message origin sender
    known fun id _ dead => by simp [blocked id dead]
  have down : ∀ id, (! network.isLive id && network.barrier? sender id = some .down) =
      ! network.isLive id := by
    intro id
    cases live : network.isLive id with
    | true => rfl
    | false => simp [blocked id live]
  have partitioned : ∀ id,
      (! network.isLive id && network.barrier? sender id = some .partitioned) = false := by
    intro id
    cases live : network.isLive id with
    | true => rfl
    | false => simp [blocked id live]
  simp only [down, partitioned, List.countP_false] at succeeds
  rw [sendAll, registered.liveNodeIds_eq]
  simp only [List.filter_filter, Bool.and_comm] at fails succeeds ⊢
  exact ⟨fails, succeeds⟩

end Network

/-- Receivers that are out of reach do not show in a send but by their counts. As long as no id
is overwritten, a send to all live nodes is one to all the others but for the count of those that
are down. -/
theorem Program.unreached_receivers {α : Type} (behaviour : Behaviour P)
    (config : NetworkConfig) (latency : Latency) (genesis : P.Payload) (life : Program P α)
    (fuel : Nat) {past rest : List (Moment P)}
    (lived : (life.record (Network.recordRun behaviour fuel)
      (.new config latency genesis)).history = past ++ rest)
    (network : Network P) (reached : network = stateAfter (.new config latency genesis) past)
    (message : P.Message) (origin sender : Nat) :
    (∀ receivers after,
      network.sendToMany message origin sender receivers = (.ok (), after) →
      ∃ other,
        network.sendToMany message origin sender (receivers.filter fun id =>
            network.isLive sender && network.isLive id &&
              ! network.isPartitioned sender id) = (.ok (), other) ∧
        after = other.withDropped
          (receivers.countP fun id => ! (network.isLive sender && network.isLive id))
          (receivers.countP fun id => network.isLive sender && network.isLive id &&
            network.isPartitioned sender id) ∧
        after.rng = other.rng ∧ after.queue = other.queue ∧
        ∀ origin sender receivers, after.fates origin sender receivers after.rng =
          other.fates origin sender receivers other.rng) ∧
    (behaviour.All Op.KeepsIds → life.All Op.KeepsIds →
      (∀ error after, network.sendAll message origin sender = (.error error, after) →
        network.sendToMany message origin sender
          ((List.range network.nodeCount).filter fun id => id ≠ sender) =
            (.error error, after)) ∧
      ∀ after, network.sendAll message origin sender = (.ok (), after) →
        network.sendToMany message origin sender
            ((List.range network.nodeCount).filter fun id => id ≠ sender) =
          (.ok (), after.withDropped
            (((List.range network.nodeCount).filter fun id => id ≠ sender).countP
              fun id => ! network.isLive id) 0)) := by
  refine ⟨fun receivers after sent => ?_, fun bodies keeps => ?_⟩
  · obtain ⟨other, succeeded, rfl⟩ := Network.sendToMany_reached sent
    exact ⟨other, succeeded, rfl, rfl, rfl, fun origin sender receivers =>
      other.fates_withDropped _ _ origin sender receivers other.rng⟩
  · have careful := (life_obeys bodies keeps fuel (.new config latency genesis)).past lived
    have registered := careful.registered nofun
    rw [← reached] at registered
    exact network.sendAll_others registered message origin sender

def relay.dispersing : Program relay (Except Error Unit) := do
  let _ ← Program.perform (.addNode (.new ⟨0, 0, none⟩ false) ())
  let _ ← Program.perform (.addNode (.new ⟨3, 4, none⟩ false) ())
  let _ ← Program.perform (.addNode (.new ⟨5, 5, none⟩ false) ())
  let _ ← Program.perform (.addNode (.new ⟨8, 1, none⟩ false) ())
  let _ ← Program.perform (.setDown 1 true)
  Program.perform (.partition [[0, 1, 2], [3]])

def relay.dispersed : List (Moment relay) :=
  (relay.dispersing.record (Network.recordRun relay.behaviour 0) relay.initial).history

theorem relay_sendToMany_inTurn :
    ((stateAfter relay.initial relay.dispersed).sendToMany 1 0 0 [2, 1, 2, 3, 0]).1 = .ok () ∧
    (Network.sendStaggered (P := relay) 1 0 0 0 [2, 1, 2, 3, 0]
      (stateAfter relay.initial relay.dispersed)).1 = .ok () ∧
    (stateAfter relay.initial relay.dispersed).sendToMany 1 0 0 [2, 1, 2, 3, 0] =
      Network.sendStaggered (P := relay) 1 0 0 0 [2, 1, 2, 3, 0]
        (stateAfter relay.initial relay.dispersed) := by
  have provided : (stateAfter relay.initial relay.dispersed).latency =
    (LatencyModel.fixed 2).latency := rfl
  obtain ⟨inTurn, same⟩ :=
    Network.sendToMany_inTurn provided 1 0 0 (List.cons_ne_nil 2 [1, 2, 3, 0])
  have sent : ((stateAfter relay.initial relay.dispersed).sendToMany 1 0 0
    [2, 1, 2, 3, 0]).1 = .ok () := rfl
  exact ⟨sent, inTurn.mp sent, same sent⟩

theorem relay_unreached_receivers :
    (∃ other,
      (stateAfter relay.initial relay.dispersed).sendToMany 1 0 0 [2, 2, 0] = (.ok (), other) ∧
      ((stateAfter relay.initial relay.dispersed).sendToMany 1 0 0 [2, 1, 2, 3, 0]).2 =
        other.withDropped 1 1) ∧
    ∃ after,
      (stateAfter relay.initial relay.dispersed).sendAll 1 0 0 = (.ok (), after) ∧
      (stateAfter relay.initial relay.dispersed).sendToMany 1 0 0 [1, 2, 3] =
        (.ok (), after.withDropped 1 0) := by
  obtain ⟨reached, everyone⟩ :=
    Program.unreached_receivers relay.behaviour {} (LatencyModel.fixed 2).latency ()
      relay.dispersing 0 (List.append_nil _).symm (stateAfter relay.initial relay.dispersed) rfl
      1 0 0
  have keeps : relay.dispersing.All Op.KeepsIds :=
    ⟨trivial, fun _ => ⟨trivial, fun _ => ⟨trivial, fun _ => ⟨trivial, fun _ => ⟨trivial,
      fun _ => ⟨trivial, fun _ => trivial⟩⟩⟩⟩⟩⟩
  constructor
  · obtain ⟨other, sent, same, -⟩ := reached [2, 1, 2, 3, 0] _ rfl
    exact ⟨other, sent, same⟩
  · exact ⟨_, rfl, (everyone relay_keepsIds keeps).2 _ rfl⟩

/-- The registry holds a node that does not have an id yet. -/
def relay.misplacing : Program relay (Except Error Unit) := do
  let _ ← Program.perform (.addNode (.new ⟨0, 0, none⟩ false) ())
  let _ ← Program.perform (.addNode (.new ⟨3, 4, none⟩ false) ())
  let _ ← Program.perform (.addNode (.new ⟨5, 5, none⟩ false) ())
  Program.perform (.setInfo 1 (.new ⟨3, 4, none⟩ false))

def relay.misplaced : List (Moment relay) :=
  (relay.misplacing.record (Network.recordRun relay.behaviour 0) relay.initial).history

theorem relay_sendAll_astray :
    ((stateAfter relay.initial relay.misplaced).sendAll 1 0 0).1 =
      .error (.unknownNode 4294967295) ∧
    ((stateAfter relay.initial relay.misplaced).sendToMany 1 0 0
      ((List.range (stateAfter relay.initial relay.misplaced).nodeCount).filter
        fun id => id ≠ 0)).1 = .ok () := by
  exact ⟨rfl, rfl⟩

end FanOut

end Simnet
