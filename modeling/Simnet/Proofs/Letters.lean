import Simnet.Proofs.Forwarding

namespace Simnet

/-! Letters. A send has one letter for each of its receivers, and it decides on all of
them before any of them goes out. A flood sends its copies together, or one after the
other as sends of their own. Every letter that is decided on has one of four fates; only
an accepted letter goes into the queue, and only its sender is charged for it. -/

section Letters

variable {P : Protocol}

structure Letter (P : Protocol) where
  message : P.Message
  origin : Nat
  sender : Nat
  receiver : Nat

namespace Letter

def event (letter : Letter P) : Event P :=
  .delivery letter.sender letter.receiver letter.message

def toAll (message : P.Message) (origin sender : Nat) (receivers : List Nat) :
    List (Letter P) :=
  receivers.map fun receiver => ⟨message, origin, sender, receiver⟩

def inTurn (message : P.Message) (sender delay : Nat) :
    (departure : Nat) → List Nat → List (List (Letter P))
  | _, [] => []
  | departure, receiver :: rest =>
      toAll message departure sender [receiver] ::
        inTurn message sender delay (departure + delay) rest

end Letter

namespace Network

def copies (network : Network P) (message : P.Message) (header : FloodHeader) (node : Nat)
    (plan : FloodPlan) : List (List (Letter P)) :=
  if header.delayBetweenPeers = 0 then
    [Letter.toAll message plan.departure node plan.receivers]
  else
    Letter.inTurn message node header.delayBetweenPeers plan.departure
      (network.rng.shuffle plan.receivers).1

def floodLetters (network : Network P) (message : P.Message) (header : FloodHeader)
    (node : Nat) (source : Option Nat) : List (List (Letter P)) :=
  match network.planFlood header node source with
  | .ok (some plan) => network.copies message header node plan
  | _ => []

end Network

namespace Op

def isSend : Op P → Bool
  | sendToMany _ _ _ _ | sendAll _ _ _ => true
  | flood _ _ _ | receiveFlood _ _ _ _ => true
  | _ => false

/-- The letters that an operation is to send. Those in one list are decided on
together. -/
def letters (network : Network P) : Op P → List (List (Letter P))
  | sendToMany message origin sender receivers =>
      [Letter.toAll message origin sender receivers]
  | sendAll message origin sender =>
      [Letter.toAll message origin sender
        (network.liveNodeIds.filter fun id => id ≠ sender)]
  | flood message header origin => network.floodLetters message header origin none
  | receiveFlood message header sender receiver =>
      network.floodLetters message header receiver (some sender)
  | _ => []

end Op

/-! Fates -/

namespace Network

def delay? (network : Network P) (sender receiver : Nat) (rng : Rng) : Option (Nat × Rng) :=
  match network.node? sender, network.node? receiver with
  | some source, some target => some (network.latency.delay source.info target.info rng)
  | _, _ => none

structure BothLive (network : Network P) (letter : Letter P) : Prop where
  sender : network.isLive letter.sender = true
  receiver : network.isLive letter.receiver = true

/-- Two networks that treat a letter alike, but for the delay that they draw. -/
structure Alike (first second : Network P) : Prop where
  time : second.time = first.time
  config : second.config = first.config
  partition : second.partition = first.partition
  latency : second.latency = first.latency
  nodeCount : second.nodeCount = first.nodeCount
  live : ∀ id, second.isLive id = first.isLive id

/-- The fate of a letter and the generator after it. The first case that applies
decides: a node is down, a partition separates the nodes, the delay is too long. -/
inductive Judged (network : Network P) (letter : Letter P) (rng : Rng) : Fate → Rng → Prop
  | down (someone : network.isLive letter.sender = false ∨
        network.isLive letter.receiver = false) :
      Judged network letter rng .down rng
  | partitioned (live : network.BothLive letter)
      (apart : network.isPartitioned letter.sender letter.receiver = true) :
      Judged network letter rng .partitioned rng
  | discarded {delay limit : Nat} {rest : Rng} (live : network.BothLive letter)
      (joined : network.isPartitioned letter.sender letter.receiver = false)
      (drawn : network.delay? letter.sender letter.receiver rng = some (delay, rest))
      (limited : network.config.discardAfter = some limit) (long : limit ≤ delay) :
      Judged network letter rng .discarded rest
  | accepted {delay : Nat} {rest : Rng} (live : network.BothLive letter)
      (joined : network.isPartitioned letter.sender letter.receiver = false)
      (drawn : network.delay? letter.sender letter.receiver rng = some (delay, rest))
      (short : ∀ limit, network.config.discardAfter = some limit → delay < limit) :
      Judged network letter rng (.deliver (letter.origin + delay)) rest

/-- Letters are judged in their order, each with the generator that the one before it
left. -/
inductive Judges (network : Network P) : Rng → List (Letter P × Fate) → Rng → Prop
  | nil (rng : Rng) : Judges network rng [] rng
  | cons {rng middle last : Rng} {letter : Letter P} {fate : Fate}
      {rest : List (Letter P × Fate)} (judged : network.Judged letter rng fate middle)
      (later : Judges network middle rest last) :
      Judges network rng ((letter, fate) :: rest) last

variable {network before middle after : Network P} {letter : Letter P} {rng rest : Rng}
variable {fate : Fate}

theorem Judged.unique {other : Fate} {otherRest : Rng}
    (judged : network.Judged letter rng fate rest)
    (again : network.Judged letter rng other otherRest) : other = fate ∧ otherRest = rest := by
  have upOrDown : ∀ {id}, network.isLive id = true → network.isLive id = false → False := by
    intro id up down
    rw [up] at down
    cases down
  have noneDown : network.BothLive letter →
      ¬ (network.isLive letter.sender = false ∨ network.isLive letter.receiver = false) := by
    rintro ⟨senderUp, receiverUp⟩ (down | down)
    · exact upOrDown senderUp down
    · exact upOrDown receiverUp down
  cases judged with
  | down someone =>
      cases again with
      | down => exact ⟨rfl, rfl⟩
      | partitioned live | discarded live | accepted live =>
          exact absurd someone (noneDown live)
  | partitioned live apart =>
      cases again with
      | down someone => exact absurd someone (noneDown live)
      | partitioned => exact ⟨rfl, rfl⟩
      | discarded _ joined | accepted _ joined =>
          rw [apart] at joined
          cases joined
  | discarded live joined drawn limited long =>
      cases again with
      | down someone => exact absurd someone (noneDown live)
      | partitioned _ apart =>
          rw [joined] at apart
          cases apart
      | discarded _ _ redrawn =>
          rw [drawn] at redrawn
          cases redrawn
          exact ⟨rfl, rfl⟩
      | accepted _ _ redrawn short =>
          rw [drawn] at redrawn
          cases redrawn
          have := short _ limited
          omega
  | accepted live joined drawn short =>
      cases again with
      | down someone => exact absurd someone (noneDown live)
      | partitioned _ apart =>
          rw [joined] at apart
          cases apart
      | discarded _ _ redrawn limited long =>
          rw [drawn] at redrawn
          cases redrawn
          have := short _ limited
          omega
      | accepted _ _ redrawn =>
          rw [drawn] at redrawn
          cases redrawn
          exact ⟨rfl, rfl⟩

theorem delay?_of_node {sender receiver : Nat} {source target : Node P}
    (sourceFound : network.node sender = .ok source)
    (targetFound : network.node receiver = .ok target) (rng : Rng) :
    network.delay? sender receiver rng =
      some (network.latency.delay source.info target.info rng) := by
  unfold delay?
  rw [node_eq_ok_iff.mp sourceFound, node_eq_ok_iff.mp targetFound]

theorem judged_of_fate (message : P.Message) {origin sender receiver : Nat}
    (decided : network.fate origin sender receiver rng = .ok (fate, rest)) :
    network.Judged ⟨message, origin, sender, receiver⟩ rng fate rest := by
  unfold Network.fate at decided
  split at decided
  · cases decided
  · rename_i source sourceFound
    split at decided
    · cases decided
    · rename_i target targetFound
      have senderLive := isLive_of_node sourceFound
      have receiverLive := isLive_of_node targetFound
      have drawn := delay?_of_node sourceFound targetFound rng
      split at decided
      · rename_i someone
        cases decided
        refine .down ?_
        simpa [senderLive, receiverLive] using someone
      · rename_i nobody
        have live : network.BothLive ⟨message, origin, sender, receiver⟩ := by
          rw [Bool.not_eq_true, Bool.or_eq_false_iff] at nobody
          exact ⟨by simp [senderLive, nobody.1], by simp [receiverLive, nobody.2]⟩
        split at decided
        · rename_i apart
          cases decided
          exact .partitioned live apart
        · rename_i joined
          rw [Bool.not_eq_true] at joined
          dsimp only at decided
          split at decided
          · rename_i long
            cases decided
            unfold NetworkConfig.discards at long
            split at long
            · cases long
            · rename_i limit limited
              exact .discarded live joined drawn limited (of_decide_eq_true long)
          · rename_i short
            split at decided
            · cases decided
            · rename_i arrival arrives
              cases decided
              obtain ⟨rfl, -⟩ := timeAfter_eq_ok_iff.mp arrives
              refine .accepted live joined drawn ?_
              intro limit limited
              simpa [NetworkConfig.discards, limited] using short

def addressed (message : P.Message) (origin sender : Nat) (decisions : List (Nat × Fate)) :
    List (Letter P × Fate) :=
  decisions.map fun decision => (⟨message, origin, sender, decision.1⟩, decision.2)

theorem judges_of_fates (message : P.Message) {origin sender : Nat} {receivers : List Nat}
    {decisions : List (Nat × Fate)}
    (decided : network.fates origin sender receivers rng = .ok (decisions, rest)) :
    network.Judges rng (addressed message origin sender decisions) rest := by
  induction receivers generalizing rng decisions with
  | nil =>
      cases decided
      exact .nil _
  | cons receiver others induction =>
      simp only [fates] at decided
      split at decided
      · cases decided
      · rename_i first
        split at decided
        · cases decided
        · rename_i later
          cases decided
          exact .cons (judged_of_fate message first) (induction later)

/-! What a send does with its letters -/

def arrivals (decisions : List (Letter P × Fate)) : List (Nat × Event P) :=
  decisions.filterMap fun decision =>
    match decision.2 with
    | .deliver arrival => some (arrival, decision.1.event)
    | _ => none

/-- Every letter is counted once, in accordance with its fate. The accepted ones go into
the queue, and the counts of the nodes move by these alone. -/
structure Settled (before : Network P) (decisions : List (Letter P × Fate))
    (after : Network P) : Prop where
  alike : before.Alike after
  queue : after.queue = before.queue.pushAll (arrivals decisions)
  booked : Booked before after (parcels (arrivals decisions)) [] []
  billed : Billed before after (parcels (arrivals decisions)) []
  droppedDown : after.counters.droppedDown =
    before.counters.droppedDown + (decisions.map (·.2)).count .down
  droppedPartition : after.counters.droppedPartition =
    before.counters.droppedPartition + (decisions.map (·.2)).count .partitioned
  droppedDiscarded : after.counters.droppedDiscarded =
    before.counters.droppedDiscarded + (decisions.map (·.2)).count .discarded

structure Sends (before : Network P) (decisions : List (Letter P × Fate))
    (after : Network P) : Prop extends Settled before decisions after where
  known : ∀ decision ∈ decisions,
    decision.1.sender < before.nodeCount ∧ decision.1.receiver < before.nodeCount
  notPast : ∀ decision ∈ decisions, before.time ≤ decision.1.origin
  judges : before.Judges before.rng decisions after.rng

/-- Sends that follow one another, with draws and marks of floods in between. -/
inductive Mails : Network P → List (List (Letter P × Fate)) → Network P → Prop
  | done (network : Network P) : Mails network [] network
  | prepare {before middle after : Network P} {sends : List (List (Letter P × Fate))}
      (same : middle = { before with rng := middle.rng, overlay := middle.overlay })
      (rest : Mails middle sends after) : Mails before sends after
  | send {before middle after : Network P} {decisions : List (Letter P × Fate)}
      {later : List (List (Letter P × Fate))} (first : before.Sends decisions middle)
      (rest : Mails middle later after) : Mails before (decisions :: later) after

variable {decisions later : List (Letter P × Fate)}

theorem Alike.trans (first : before.Alike middle) (second : middle.Alike after) :
    before.Alike after where
  time := second.time.trans first.time
  config := second.config.trans first.config
  partition := second.partition.trans first.partition
  latency := second.latency.trans first.latency
  nodeCount := second.nodeCount.trans first.nodeCount
  live id := (second.live id).trans (first.live id)

theorem Alike.of_prepared
    (same : after = { before with rng := after.rng, overlay := after.overlay }) :
    before.Alike after := by
  rw [same]
  exact ⟨rfl, rfl, rfl, rfl, rfl, fun _ => rfl⟩

theorem arrivals_append :
    arrivals (decisions ++ later) = arrivals decisions ++ arrivals later :=
  List.filterMap_append

theorem Settled.of_prepared
    (same : after = { before with rng := after.rng, overlay := after.overlay }) :
    before.Settled [] after := by
  have alike := Alike.of_prepared same
  rw [same] at alike ⊢
  exact ⟨alike, rfl, .of_counters rfl, .of_nodes rfl, rfl, rfl, rfl⟩

theorem Settled.trans (first : before.Settled decisions middle)
    (second : middle.Settled later after) : before.Settled (decisions ++ later) after where
  alike := first.alike.trans second.alike
  queue := by rw [second.queue, first.queue, arrivals_append, EventQueue.pushAll_append]
  booked := by
    rw [arrivals_append, parcels_append]
    exact first.booked.trans second.booked
  billed := by
    rw [arrivals_append, parcels_append]
    exact first.billed.trans second.billed
  droppedDown := by
    rw [second.droppedDown, first.droppedDown, List.map_append, List.count_append,
      Nat.add_assoc]
  droppedPartition := by
    rw [second.droppedPartition, first.droppedPartition, List.map_append,
      List.count_append, Nat.add_assoc]
  droppedDiscarded := by
    rw [second.droppedDiscarded, first.droppedDiscarded, List.map_append,
      List.count_append, Nat.add_assoc]

theorem settled_commitFate (message : P.Message) (origin receiver : Nat) {sender : Nat}
    (fate : Fate) (known : sender < network.nodeCount) :
    network.Settled [(⟨message, origin, sender, receiver⟩, fate)]
      (commitFate message sender network (receiver, fate)) := by
  cases fate with
  | down | partitioned | discarded =>
      exact ⟨⟨rfl, rfl, rfl, rfl, rfl, fun _ => rfl⟩, rfl, ⟨rfl, rfl, rfl⟩, .of_nodes rfl,
        rfl, rfl, rfl⟩
  | deliver arrival =>
      refine ⟨⟨rfl, rfl, rfl, rfl, nodeCount_commitFate .., ?_⟩, rfl, ⟨rfl, rfl, rfl⟩, ?_,
        rfl, rfl, rfl⟩
      · exact fun id => isLive_modifyNode network sender id fun _ => rfl
      · exact (billed_countSent network message known).of_same_nodes rfl

theorem settled_commitFates (message : P.Message) (origin : Nat) {sender : Nat}
    (fates : List (Nat × Fate)) {network : Network P} (known : sender < network.nodeCount) :
    network.Settled (addressed message origin sender fates)
      (fates.foldl (commitFate message sender) network) := by
  induction fates generalizing network with
  | nil => exact .of_prepared rfl
  | cons decision rest induction =>
      have first := network.settled_commitFate message origin decision.1 decision.2 known
      have knownLater : sender < (commitFate message sender network decision).nodeCount := by
        rw [nodeCount_commitFate]
        exact known
      exact first.trans (induction knownLater)

theorem rng_commitFates (message : P.Message) (sender : Nat) (fates : List (Nat × Fate))
    (network : Network P) :
    (fates.foldl (commitFate message sender) network).rng = network.rng := by
  induction fates generalizing network with
  | nil => rfl
  | cons decision rest induction =>
      obtain ⟨receiver, fate⟩ := decision
      rw [List.foldl_cons, induction]
      cases fate <;> rfl

theorem sends_of_sendToMany {message : P.Message} {origin sender : Nat}
    {receivers : List Nat}
    (sent : network.sendToMany message origin sender receivers = (.ok (), after)) :
    ∃ decisions, decisions.map (·.1) = Letter.toAll message origin sender receivers ∧
      network.Sends decisions after := by
  unfold sendToMany at sent
  split at sent
  · cases sent
  · rename_i checked
    split at sent
    · cases sent
    · rename_i fates rng decided
      cases sent
      obtain ⟨notPast, known⟩ := checkSend_ok checked
      obtain ⟨receiversDecided, -⟩ := fates_spec decided
      have drawn : network.Settled [] { network with rng := rng } := .of_prepared rfl
      have settled := drawn.trans
        (settled_commitFates message origin fates (known sender List.mem_cons_self))
      have judges := judges_of_fates message decided
      refine ⟨addressed message origin sender fates, ?_, settled, ?_, ?_, ?_⟩
      · rw [← receiversDecided]
        simp [addressed, Letter.toAll]
      · intro decision member
        obtain ⟨fate, decided, rfl⟩ := List.mem_map.mp member
        refine ⟨known sender List.mem_cons_self, known _ (List.mem_cons_of_mem sender ?_)⟩
        rw [← receiversDecided]
        exact List.mem_map_of_mem decided
      · intro decision member
        obtain ⟨fate, decided, rfl⟩ := List.mem_map.mp member
        exact notPast
      · rw [rng_commitFates]
        exact judges

/-! Operations -/

/-- The sends of an operation as far as it got, all of them if it succeeds. -/
structure Posts (before : Network P) (letters : List (List (Letter P)))
    (failure : Option Error) (sends : List (List (Letter P × Fate))) (after : Network P) :
    Prop where
  mails : before.Mails sends after
  reached : sends.map (·.map (·.1)) <+: letters
  whole : failure = none → sends.map (·.map (·.1)) = letters

theorem Posts.nothing (network : Network P) (letters : List (List (Letter P)))
    (error : Error) : network.Posts letters (some error) [] network where
  mails := .done network
  reached := List.nil_prefix
  whole := by
    intro succeeded
    cases succeeded

theorem Posts.prepare {letters : List (List (Letter P))} {failure : Option Error}
    {sends : List (List (Letter P × Fate))}
    (same : middle = { before with rng := middle.rng, overlay := middle.overlay })
    (posts : middle.Posts letters failure sends after) :
    before.Posts letters failure sends after where
  mails := .prepare same posts.mails
  reached := posts.reached
  whole := posts.whole

theorem posts_sendToMany {message : P.Message} {origin sender : Nat} {receivers : List Nat}
    {outcome : Except Error Unit}
    (sent : network.sendToMany message origin sender receivers = (outcome, after)) :
    ∃ sends, network.Posts [Letter.toAll message origin sender receivers]
      (failureOf outcome) sends after := by
  cases outcome with
  | error error =>
      have spared := (network.spares_sendToMany message origin sender receivers).unchanged
      rw [sent] at spared
      obtain rfl : after = network := spared error rfl
      exact ⟨[], .nothing after _ error⟩
  | ok _ =>
      obtain ⟨decisions, addressed, sends⟩ := sends_of_sendToMany sent
      have all : [decisions].map (·.map (·.1)) =
          [Letter.toAll message origin sender receivers] := by
        rw [List.map_singleton, addressed]
      exact ⟨[decisions], .send sends (.done after), all ▸ List.prefix_refl _, fun _ => all⟩

theorem posts_sendStaggered {message : P.Message} {sender delay departure : Nat}
    {receivers : List Nat} {network after : Network P} {outcome : Except Error Unit}
    (sent : sendStaggered message sender delay departure receivers network =
      (outcome, after)) :
    ∃ sends, network.Posts (Letter.inTurn message sender delay departure receivers)
      (failureOf outcome) sends after := by
  induction receivers generalizing departure network with
  | nil =>
      cases sent
      exact ⟨[], .done _, List.nil_prefix, fun _ => rfl⟩
  | cons receiver rest induction =>
      unfold sendStaggered at sent
      split at sent
      · rename_i error middle failed
        cases sent
        have spared := (network.spares_sendToMany message departure sender
          [receiver]).unchanged
        rw [send] at failed
        rw [failed] at spared
        obtain rfl : after = network := spared error rfl
        exact ⟨[], .nothing after _ error⟩
      · rename_i middle single
        obtain ⟨decisions, addressed, first⟩ := sends_of_sendToMany single
        obtain ⟨sends, later⟩ := induction sent
        refine ⟨decisions :: sends, .send first later.mails, ?_, ?_⟩
        · rw [List.map_cons, addressed]
          exact (List.prefix_cons_inj _).mpr later.reached
        · intro succeeded
          rw [List.map_cons, addressed, later.whole succeeded, Letter.inTurn]

theorem posts_forwardFlood {message : P.Message} {header : FloodHeader} {node : Nat}
    {source : Option Nat} {outcome : Except Error Bool}
    (forwarded : network.forwardFlood message header node source = (outcome, after)) :
    ∃ sends, network.Posts (network.floodLetters message header node source)
      (failureOf outcome) sends after := by
  have copied : ∀ {plan : FloodPlan} {outcome : Except Error Unit},
      network.planFlood header node source = .ok (some plan) →
      (network.markSeen header.messageId node).sendCopies message header node plan =
        (outcome, after) →
      ∃ sends, network.Posts (network.floodLetters message header node source)
        (failureOf outcome) sends after := by
    intro plan outcome planned sent
    unfold floodLetters copies
    rw [planned]
    unfold sendCopies at sent
    dsimp only
    split at sent <;> rename_i stagger
    · rw [if_pos stagger]
      obtain ⟨sends, posts⟩ := posts_sendToMany sent
      exact ⟨sends, posts.prepare rfl⟩
    · rw [if_neg stagger]
      obtain ⟨sends, posts⟩ := posts_sendStaggered sent
      exact ⟨sends, posts.prepare rfl⟩
  cases forwards_of_forwardFlood forwarded with
  | refused planned => exact ⟨[], .nothing network _ _⟩
  | ignored planned =>
      have nothing : network.floodLetters message header node source = [] := by
        unfold floodLetters
        rw [planned]
      rw [nothing]
      exact ⟨[], .done network, List.nil_prefix, fun _ => rfl⟩
  | passed planned sent => exact copied planned sent
  | broken planned failed => exact copied planned failed

/-! The accepted letters -/

theorem Mails.settled {sends : List (List (Letter P × Fate))}
    (mails : before.Mails sends after) : before.Settled sends.flatten after := by
  induction mails with
  | done network => exact .of_prepared rfl
  | prepare same _ induction => exact (Settled.of_prepared same).trans induction
  | send first _ induction => exact first.toSettled.trans induction

/-- A letter with its fate, as some network decides that is like this one. -/
structure Decides (network : Network P) (decision : Letter P × Fate) : Prop where
  known : decision.1.sender < network.nodeCount ∧ decision.1.receiver < network.nodeCount
  notPast : network.time ≤ decision.1.origin
  judged : ∃ (sending : Network P) (rng rest : Rng), network.Alike sending ∧
    sending.Judged decision.1 rng decision.2 rest

theorem Alike.decides {decision : Letter P × Fate} (alike : before.Alike middle)
    (decides : middle.Decides decision) : before.Decides decision := by
  obtain ⟨known, notPast, sending, rng, rest, later, judged⟩ := decides
  rw [alike.nodeCount] at known
  rw [alike.time] at notPast
  exact ⟨known, notPast, sending, rng, rest, alike.trans later, judged⟩

theorem exists_judged_of_judges (judges : network.Judges rng decisions rest)
    {decision : Letter P × Fate} (member : decision ∈ decisions) :
    ∃ first last, network.Judged decision.1 first decision.2 last := by
  induction judges with
  | nil => cases member
  | cons judged _ induction =>
      rcases List.mem_cons.mp member with rfl | later
      · exact ⟨_, _, judged⟩
      · exact induction later

theorem Mails.decides {sends : List (List (Letter P × Fate))}
    (mails : before.Mails sends after) : ∀ decision ∈ sends.flatten, before.Decides decision := by
  induction mails with
  | done => exact List.forall_mem_nil _
  | prepare same _ induction =>
      exact fun decision member => (Alike.of_prepared same).decides (induction decision member)
  | @send before _ _ _ _ first _ induction =>
      intro decision member
      rw [List.flatten_cons] at member
      rcases List.mem_append.mp member with now | later
      · obtain ⟨rng, rest, judged⟩ := exists_judged_of_judges first.judges now
        exact ⟨first.known decision now, first.notPast decision now, before, rng, rest,
          .of_prepared rfl, judged⟩
      · exact first.alike.decides (induction decision later)

structure Accepts (network : Network P) (letter : Letter P) (arrival : Nat) : Prop where
  live : network.BothLive letter
  joined : network.isPartitioned letter.sender letter.receiver = false
  notPast : network.time ≤ letter.origin
  drawn : ∃ (sending : Network P) (delay : Nat) (rng rest : Rng), network.Alike sending ∧
    sending.delay? letter.sender letter.receiver rng = some (delay, rest) ∧
    arrival = letter.origin + delay ∧
    ∀ limit, network.config.discardAfter = some limit → delay < limit

theorem Alike.isPartitioned (alike : before.Alike after) (first second : Nat) :
    after.isPartitioned first second = before.isPartitioned first second := by
  unfold Network.isPartitioned
  rw [alike.partition]

theorem Decides.accepts {arrival : Nat} (decides : network.Decides (letter, .deliver arrival)) :
    network.Accepts letter arrival := by
  obtain ⟨-, notPast, sending, rng, rest, alike, judged⟩ := decides
  dsimp only at notPast judged
  cases judged with
  | @accepted delay _ live joined drawn short =>
      rw [alike.isPartitioned] at joined
      rw [alike.config] at short
      refine ⟨⟨?_, ?_⟩, joined, notPast, sending, delay, rng, rest, alike, drawn, rfl, short⟩
      · rw [← alike.live]
        exact live.sender
      · rw [← alike.live]
        exact live.receiver

theorem mem_arrivals {arrival : Nat} {event : Event P}
    (member : (arrival, event) ∈ arrivals decisions) :
    ∃ letter, (letter, .deliver arrival) ∈ decisions ∧ event = letter.event := by
  obtain ⟨⟨letter, fate⟩, decided, delivers⟩ := List.mem_filterMap.mp member
  cases fate with
  | down | partitioned | discarded => cases delivers
  | deliver time =>
      cases delivers
      exact ⟨letter, decided, rfl⟩

theorem Posts.accepts {letters : List (List (Letter P))} {failure : Option Error}
    {sends : List (List (Letter P × Fate))}
    (posts : before.Posts letters failure sends after) {arrival : Nat} {event : Event P}
    (member : (arrival, event) ∈ arrivals sends.flatten) :
    ∃ letter ∈ letters.flatten, event = letter.event ∧ before.Accepts letter arrival := by
  obtain ⟨letter, decided, isEvent⟩ := mem_arrivals member
  refine ⟨letter, ?_, isEvent, (posts.mails.decides _ decided).accepts⟩
  apply posts.reached.flatten.subset
  rw [← List.map_flatten]
  exact List.mem_map_of_mem decided

end Network

namespace Op

variable {network after : Network P} {op : Op P} {answer : op.Answer}

theorem posts_perform (isSend : op.isSend = true)
    (performed : op.perform idle network = some (answer, after)) :
    ∃ sends, network.Posts (op.letters network) (op.failure? answer) sends after := by
  cases op with
  | sendToMany message origin sender receivers =>
      exact Network.posts_sendToMany (Option.some.inj performed)
  | sendAll message origin sender =>
      exact Network.posts_sendToMany (Option.some.inj performed)
  | flood message header origin =>
      have flooded := Option.some.inj performed
      unfold Network.flood at flooded
      split at flooded <;> rename_i forwarded <;> cases flooded <;>
        exact Network.posts_forwardFlood forwarded
  | receiveFlood message header sender receiver =>
      exact Network.posts_forwardFlood (Option.some.inj performed)
  | _ => cases isSend

end Op

/-! Operations that send nothing -/

namespace Network

variable {network after : Network P}

theorem counters_updateNode {id : Nat} {change : Node P → Node P}
    {outcome : Except Error Unit}
    (updated : network.updateNode id change = (outcome, after)) :
    after.counters = network.counters := by
  unfold updateNode at updated
  split at updated <;> cases updated <;> rfl

theorem counters_schedule {task : P.Task} {start owner : Nat} {kind : Recurrence}
    {outcome : Except Error Nat}
    (scheduled : network.schedule task start owner kind = (outcome, after)) :
    after.counters = network.counters := by
  unfold schedule at scheduled
  split at scheduled
  · cases scheduled
    rfl
  · split at scheduled
    · cases scheduled
      rfl
    · split at scheduled <;> cases scheduled <;> rfl

theorem counters_installPartition {groups : List (List Nat)} {outcome : Except Error Unit}
    (installed : network.installPartition groups = (outcome, after)) :
    after.counters = network.counters := by
  unfold installPartition at installed
  split at installed <;> cases installed <;> rfl

theorem counters_acceptBlock {node : Nat} {block : Block P.Payload}
    {outcome : Except Error Bool}
    (accepted : network.acceptBlock node block = (outcome, after)) :
    after.counters = network.counters := by
  unfold acceptBlock at accepted
  split at accepted
  · split at accepted <;> cases accepted <;> rfl
  · cases accepted
    rfl

theorem counters_offerBlock {node id : Nat} {outcome : Except Error Bool}
    (offered : network.offerBlock node id = (outcome, after)) :
    after.counters = network.counters := by
  unfold offerBlock at offered
  split at offered
  · cases offered
    rfl
  · split at offered
    · cases offered
      rfl
    · split at offered
      · cases offered
        rfl
      · split at offered
        · split at offered
          · exact counters_acceptBlock offered
          · cases offered
            rfl
          · unfold deferBlock at offered
            split at offered <;> rename_i registered <;> cases offered <;>
              exact counters_schedule registered
        · exact counters_acceptBlock offered

end Network

theorem Op.counters_perform {network after : Network P} {op : Op P} {answer : op.Answer}
    (quiet : op.isRun = false) (sendsNothing : op.isSend = false)
    (performed : op.perform idle network = some (answer, after)) :
    after.counters = network.counters := by
  cases op with
  | runUntil _ | runFor _ | runSeconds _ => cases quiet
  | sendToMany _ _ _ _ | sendAll _ _ _ | flood _ _ _ | receiveFlood _ _ _ _ =>
      cases sendsNothing
  | read | setRng _ | createNode _ _ | endPartition =>
      cases performed
      rfl
  | addNode info state =>
      rcases Network.addNode_cases (Option.some.inj performed) with
        rfl | ⟨-, -, -, rfl⟩ <;> rfl
  | setState _ _ | setLocation _ _ | setInfo _ _ | setDown _ _ | markDone _ | disconnect _ =>
      exact Network.counters_updateNode (Option.some.inj performed)
  | schedule _ _ _ _ => exact Network.counters_schedule (Option.some.inj performed)
  | partition _ => exact Network.counters_installPartition (Option.some.inj performed)
  | partitionByPosition fraction =>
      have divided := Option.some.inj performed
      unfold Network.partitionByPosition at divided
      split at divided
      · exact Network.counters_installPartition divided
      · cases divided
        rfl
  | setPeers config =>
      have built := Option.some.inj performed
      unfold Network.setPeers at built
      split at built <;> cases built <;> rfl
  | createLink first second =>
      have linked := Option.some.inj performed
      unfold Network.createLink at linked
      split at linked <;> cases linked <;> rfl
  | removeLink first second =>
      have removed := Option.some.inj performed
      unfold Network.removeLink at removed
      split at removed <;> cases removed <;> rfl
  | createBlock proposal =>
      have created := Option.some.inj performed
      unfold Network.createBlock at created
      split at created
      · cases created
        rfl
      · split at created <;> cases created <;> rfl
  | offerBlock _ _ => exact Network.counters_offerBlock (Option.some.inj performed)

end Letters

end Simnet
