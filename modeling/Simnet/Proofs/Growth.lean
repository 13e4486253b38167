import Simnet.Proofs.Division
import Simnet.Snapshot

namespace Simnet

/-! What only grows. Counters count on, and a node finishes once. One moment is taken apart for
a single node and says all that can happen to it; whatever is told of two networks of a life
follows from that. -/

structure Counters.Grow (before after : Counters) : Prop where
  messagesSent : before.messagesSent ≤ after.messagesSent
  messagesDelivered : before.messagesDelivered ≤ after.messagesDelivered
  droppedDown : before.droppedDown ≤ after.droppedDown
  droppedPartition : before.droppedPartition ≤ after.droppedPartition
  droppedDiscarded : before.droppedDiscarded ≤ after.droppedDiscarded
  droppedAtDelivery : before.droppedAtDelivery ≤ after.droppedAtDelivery
  tasksFired : before.tasksFired ≤ after.tasksFired
  tasksSkipped : before.tasksSkipped ≤ after.tasksSkipped

namespace Counters.Grow

theorem refl (counters : Counters) : counters.Grow counters := by
  constructor <;> exact Nat.le_refl _

theorem trans {before middle after : Counters} (first : before.Grow middle)
    (second : middle.Grow after) : before.Grow after where
  messagesSent := Nat.le_trans first.messagesSent second.messagesSent
  messagesDelivered := Nat.le_trans first.messagesDelivered second.messagesDelivered
  droppedDown := Nat.le_trans first.droppedDown second.droppedDown
  droppedPartition := Nat.le_trans first.droppedPartition second.droppedPartition
  droppedDiscarded := Nat.le_trans first.droppedDiscarded second.droppedDiscarded
  droppedAtDelivery := Nat.le_trans first.droppedAtDelivery second.droppedAtDelivery
  tasksFired := Nat.le_trans first.tasksFired second.tasksFired
  tasksSkipped := Nat.le_trans first.tasksSkipped second.tasksSkipped

end Counters.Grow

namespace NodeInfo

def role (info : NodeInfo) : Nat × Bool :=
  (info.id, info.byzantine)

/-- What a node keeps from the start on, unless it is moved. -/
def identity (info : NodeInfo) : Nat × Location × Bool :=
  (info.id, info.location, info.byzantine)

structure MoreTraffic (before after : NodeInfo) : Prop where
  messagesSent : before.messagesSent ≤ after.messagesSent
  messagesReceived : before.messagesReceived ≤ after.messagesReceived
  bytesSent : before.bytesSent ≤ after.bytesSent
  bytesReceived : before.bytesReceived ≤ after.bytesReceived

theorem SameTraffic.more {before after : NodeInfo} (same : after.SameTraffic before) :
    before.MoreTraffic after where
  messagesSent := Nat.le_of_eq same.messagesSent.symm
  messagesReceived := Nat.le_of_eq same.messagesReceived.symm
  bytesSent := Nat.le_of_eq same.bytesSent.symm
  bytesReceived := Nat.le_of_eq same.bytesReceived.symm

theorem MoreTraffic.trans {before middle after : NodeInfo} (first : before.MoreTraffic middle)
    (second : middle.MoreTraffic after) : before.MoreTraffic after where
  messagesSent := Nat.le_trans first.messagesSent second.messagesSent
  messagesReceived := Nat.le_trans first.messagesReceived second.messagesReceived
  bytesSent := Nat.le_trans first.bytesSent second.bytesSent
  bytesReceived := Nat.le_trans first.bytesReceived second.bytesReceived

/-- The counts of a node have not gone back, and the time at which it finished has stayed. -/
structure Grows (before after : NodeInfo) : Prop extends MoreTraffic before after where
  doneAt : before.doneAt ≠ 0 → after.doneAt = before.doneAt

theorem Grows.refl (info : NodeInfo) : info.Grows info where
  toMoreTraffic := (SameTraffic.refl info).more
  doneAt _ := rfl

theorem Grows.trans {before middle after : NodeInfo} (first : before.Grows middle)
    (second : middle.Grows after) : before.Grows after where
  toMoreTraffic := first.toMoreTraffic.trans second.toMoreTraffic
  doneAt done := by
    have kept := first.doneAt done
    rw [second.doneAt (kept.symm ▸ done), kept]

theorem doneAt_markDone (info : NodeInfo) (now : Nat) :
    (info.markDone now).doneAt = if info.doneAt = 0 then max 1 now else info.doneAt := by
  unfold markDone
  split <;> rfl

theorem role_markDone (info : NodeInfo) (now : Nat) :
    (info.markDone now).role = info.role := by
  unfold markDone
  split <;> rfl

theorem identity_markDone (info : NodeInfo) (now : Nat) :
    (info.markDone now).identity = info.identity := by
  unfold markDone
  split <;> rfl

end NodeInfo

section Growth

variable {P : Protocol}

namespace Op

def overwrites : Op P → Bool
  | setInfo _ _ => true
  | _ => false

def moves : Op P → Bool
  | setLocation _ _ => true
  | _ => false

def bringsFinished : Op P → Bool
  | addNode info _ => info.isDone
  | _ => false

end Op

namespace Moment

def operates (kind : Op P → Bool) (moment : Moment P) : Bool :=
  match moment.happening with
  | .operated op => kind op
  | _ => false

/-- The time at which a moment marks a node as done, if it marks it and the node is there. -/
def mark? (id : Nat) (moment : Moment P) : Option Nat :=
  match moment.happening with
  | .operated (.markDone node) =>
      if node = id ∧ id < moment.before.nodeCount then some (max 1 moment.before.time) else none
  | _ => none

/-- All that can happen to a node at a moment that does not overwrite it. -/
structure Treats (moment : Moment P) (id : Nat) (before after : NodeInfo) : Prop where
  traffic : before.MoreTraffic after
  doneAt : after.doneAt =
    if before.doneAt = 0 then (moment.mark? id).getD 0 else before.doneAt
  role : after.role = before.role
  identity : moment.operates Op.moves = false → after.identity = before.identity

variable {moment : Moment P} {id : Nat} {before after : NodeInfo}

theorem mark?_eq_some {time : Nat} (marked : moment.mark? id = some time) :
    moment.happening = .operated (.markDone id) ∧ id < moment.before.nodeCount ∧
      time = max 1 moment.before.time := by
  unfold mark? at marked
  split at marked
  · rename_i node marks
    split at marked
    · rename_i present
      obtain ⟨rfl, known⟩ := present
      cases marked
      exact ⟨marks, known, rfl⟩
    · cases marked
  · cases marked

theorem mark?_of_absent (absent : moment.before.node? id = none) : moment.mark? id = none := by
  cases marked : moment.mark? id with
  | none => rfl
  | some time =>
      obtain ⟨-, known, -⟩ := mark?_eq_some marked
      exact absurd known (Nat.not_lt.mpr (Network.node?_eq_none_iff.mp absent))

theorem Treats.grows (treats : moment.Treats id before after) : before.Grows after where
  toMoreTraffic := treats.traffic
  doneAt done := by rw [treats.doneAt, if_neg done]

theorem Treats.of_unmarked (unmarked : moment.mark? id = none)
    (traffic : before.MoreTraffic after) (doneAt : after.doneAt = before.doneAt)
    (role : after.role = before.role)
    (identity : moment.operates Op.moves = false → after.identity = before.identity) :
    moment.Treats id before after where
  traffic := traffic
  doneAt := by
    rw [unmarked, doneAt]
    split
    · assumption
    · rfl
  role := role
  identity := identity

theorem Treats.same (unmarked : moment.mark? id = none) (info : NodeInfo) :
    moment.Treats id info info :=
  .of_unmarked unmarked (NodeInfo.SameTraffic.refl info).more rfl rfl fun _ => rfl

end Moment

/-! Counters -/

namespace Network

theorem counters_commitFate (message : P.Message) (sender : Nat) (network : Network P)
    (decision : Nat × Fate) :
    network.counters.Grow (commitFate message sender network decision).counters := by
  obtain ⟨receiver, fate⟩ := decision
  cases fate <;> constructor <;> simp [commitFate]

theorem counters_countEvent (network : Network P) (event : Event P) (reaction : Reaction) :
    network.counters.Grow (network.countEvent event reaction).counters := by
  cases event <;> cases reaction <;> constructor <;> simp [countEvent]

variable {kept : Prop} {before after : Network P}

theorem Change.counters_grow (change : Change kept before after) :
    before.counters.Grow after.counters := by
  cases change with
  | settle message _ _ _ => exact counters_commitFate ..
  | _ => exact .refl _

theorem Changes.counters_grow (changes : Changes kept before after) :
    before.counters.Grow after.counters := by
  induction changes with
  | refl => exact .refl _
  | tail _ change grown => exact grown.trans change.counters_grow

end Network

variable {behaviour : Behaviour P} {good : Op P → Prop} {moment : Moment P}

theorem Moment.Lawful.counters_grow (lawful : moment.Lawful behaviour good) :
    moment.before.counters.Grow moment.after.counters := by
  cases lawful with
  | operated quiet _ performed =>
      have changes : Network.Changes False _ _ :=
        Network.changes_perform quiet False.elim performed
      exact changes.counters_grow
  | began started =>
      obtain ⟨-, -, rfl⟩ := Network.start_eq_ok started
      exact .refl _
  | @took before queue key event _ _ =>
      exact (before.arrive queue key.time).counters_countEvent event _
  | rearmed | halted | finished => exact .refl _

/-! Nodes -/

namespace Network

variable {network after : Network P} {id : Nat} {node : Node P}

theorem node?_modifyNode_of_found (target : Nat) (change : Node P → Node P)
    (found : network.node? id = some node) :
    (network.modifyNode target change).node? id =
      some (if target = id then change node else node) := by
  rw [node?_modifyNode, found]
  split <;> rfl

theorem node?_updateNode {target : Nat} {change : Node P → Node P}
    {outcome : Except Error Unit} (updated : network.updateNode target change = (outcome, after))
    (found : network.node? id = some node) :
    after.node? id = some (if target = id then change node else node) := by
  unfold updateNode at updated
  split at updated
  · rename_i absent
    cases updated
    have other : target ≠ id := by
      rintro rfl
      rw [absent] at found
      cases found
    rw [if_neg other, found]
  · cases updated
    exact node?_modifyNode_of_found target change found

theorem Billed.more_traffic {sent delivered : List (Parcel P)} {later : Node P}
    (billed : Billed network after sent delivered) (found : network.node? id = some node)
    (stays : after.node? id = some later) : node.info.MoreTraffic later.info := by
  have before : ∀ count, network.tally count id = count node.info := by
    intro count
    rw [tally, found]
  have now : ∀ count, after.tally count id = count later.info := by
    intro count
    rw [tally, stays]
  constructor
  · have sum := billed.messagesSent id
    rw [before, now] at sum
    omega
  · have sum := billed.messagesReceived id
    rw [before, now] at sum
    omega
  · have sum := billed.bytesSent id
    rw [before, now] at sum
    omega
  · have sum := billed.bytesReceived id
    rw [before, now] at sum
    omega

end Network

theorem Node.doneAt_of_core {node later : Node P} (same : later.core = node.core) :
    later.info.doneAt = node.info.doneAt :=
  congrArg (fun node => node.info.doneAt) same

theorem Node.role_of_core {node later : Node P} (same : later.core = node.core) :
    later.info.role = node.info.role :=
  congrArg (fun node => node.info.role) same

theorem Node.identity_of_core {node later : Node P} (same : later.core = node.core) :
    later.info.identity = node.info.identity :=
  congrArg (fun node => node.info.identity) same

namespace Op

variable {before after : Network P} {op : Op P} {answer : op.Answer} {id : Nat} {node : Node P}

theorem keepsCounts_of_plain (plain : op.editsNodes = false) (network : Network P) :
    op.KeepsCounts network := by
  cases op with
  | addNode _ _ | setInfo _ _ => cases plain
  | _ => trivial

theorem mark?_of_plain (plain : op.editsNodes = false) (id : Nat) :
    (⟨before, .operated op, after⟩ : Moment P).mark? id = none := by
  cases op with
  | markDone _ => cases plain
  | _ => rfl

theorem treats_of_plain (quiet : op.isRun = false) (plain : op.editsNodes = false)
    (performed : op.perform idle before = some (answer, after))
    (found : before.node? id = some node) :
    ∃ later, after.node? id = some later ∧
      (⟨before, .operated op, after⟩ : Moment P).Treats id node.info later.info := by
  obtain ⟨later, stays, core⟩ := Network.node?_of_cores (cores_perform quiet plain performed) found
  obtain ⟨_, effect⟩ :=
    Network.effect_perform True quiet (fun _ => keepsCounts_of_plain plain before) performed
  exact ⟨later, stays, .of_unmarked (mark?_of_plain plain id)
    ((effect.billed trivial).more_traffic found stays) (Node.doneAt_of_core core)
    (Node.role_of_core core) fun _ => Node.identity_of_core core⟩

theorem treats_of_update {target : Nat} {change : Node P → Node P}
    {outcome : Except Error Unit} {moment : Moment P}
    (updated : before.updateNode target change = (outcome, after))
    (own : ∀ node, before.node? target = some node →
      moment.Treats target node.info (change node).info)
    (others : ∀ other, target ≠ other → moment.mark? other = none)
    (found : before.node? id = some node) :
    ∃ later, after.node? id = some later ∧ moment.Treats id node.info later.info := by
  refine ⟨_, Network.node?_updateNode updated found, ?_⟩
  split
  · rename_i same
    subst same
    exact own node found
  · rename_i other
    exact .same (others id other) node.info

theorem treats (quiet : op.isRun = false) (keeps : op.overwrites = false)
    (performed : op.perform idle before = some (answer, after))
    (found : before.node? id = some node) :
    ∃ later, after.node? id = some later ∧
      (⟨before, .operated op, after⟩ : Moment P).Treats id node.info later.info := by
  cases plain : op.editsNodes with
  | false => exact treats_of_plain quiet plain performed found
  | true =>
      cases op with
      | setInfo _ _ => cases keeps
      | addNode info state =>
          refine ⟨node, ?_, .same rfl node.info⟩
          rcases Network.addNode_cases (Option.some.inj performed) with rfl | ⟨-, -, -, rfl⟩
          · exact found
          · have known := Network.lt_nodeCount_of_node? found
            exact (List.getElem?_append_left known).trans found
      | markDone target =>
          apply treats_of_update (Option.some.inj performed) ?_ ?_ found
          · intro node present
            have known := Network.lt_nodeCount_of_node? present
            constructor
            · exact (node.info.sameTraffic_markDone before.time).more
            · rw [NodeInfo.doneAt_markDone]
              simp [Moment.mark?, known]
            · exact node.info.role_markDone before.time
            · exact fun _ => node.info.identity_markDone before.time
          · intro other different
            simp [Moment.mark?, different]
      | setLocation target location =>
          apply treats_of_update (Option.some.inj performed) ?_ (fun _ _ => rfl) found
          exact fun node _ => .of_unmarked rfl
            (NodeInfo.SameTraffic.more ⟨rfl, rfl, rfl, rfl⟩) rfl rfl nofun
      | setState target _ | setDown target _ | disconnect target =>
          apply treats_of_update (Option.some.inj performed) ?_ (fun _ _ => rfl) found
          exact fun node _ => .of_unmarked rfl
            (NodeInfo.SameTraffic.more ⟨rfl, rfl, rfl, rfl⟩) rfl rfl fun _ => rfl
      | _ => cases plain

end Op

namespace Network

theorem more_traffic_countEvent (network : Network P) (event : Event P) (reaction : Reaction)
    {id : Nat} {node : Node P} (found : network.node? id = some node) :
    ∃ later, (network.countEvent event reaction).node? id = some later ∧
      later.core = node.core ∧ node.info.MoreTraffic later.info := by
  have same := (NodeInfo.SameTraffic.refl node.info).more
  cases event with
  | task _ => cases reaction <;> exact ⟨node, found, rfl, same⟩
  | delivery _ receiver message =>
      cases reaction with
      | acted _ =>
          refine ⟨_, node?_modifyNode_of_found receiver (fun node =>
            { node with info := node.info.countReceived (P.size message) }) found, ?_⟩
          split
          · refine ⟨rfl, Nat.le_refl _, Nat.le_succ _, Nat.le_refl _, Nat.le_add_right ..⟩
          · exact ⟨rfl, same⟩
      | _ => exact ⟨node, found, rfl, same⟩

end Network

theorem Moment.Lawful.treats (lawful : moment.Lawful behaviour good)
    (keeps : moment.operates Op.overwrites = false) {id : Nat} {node : Node P}
    (found : moment.before.node? id = some node) :
    ∃ later, moment.after.node? id = some later ∧ moment.Treats id node.info later.info := by
  cases lawful with
  | operated quiet _ performed => exact Op.treats quiet keeps performed found
  | began started =>
      obtain ⟨-, -, rfl⟩ := Network.start_eq_ok started
      exact ⟨node, found, .same rfl node.info⟩
  | @took before queue key event _ _ =>
      obtain ⟨later, stays, core, traffic⟩ :=
        (before.arrive queue key.time).more_traffic_countEvent event _ found
      exact ⟨later, stays, .of_unmarked rfl traffic (Node.doneAt_of_core core)
        (Node.role_of_core core) fun _ => Node.identity_of_core core⟩
  | rearmed | halted | finished => exact ⟨node, found, .same rfl node.info⟩

/-! Two networks of a life -/

theorem length_filter_le {α : Type} {test : α → Bool} {items others : List α}
    (carried : ∀ (place : Nat) item, items[place]? = some item →
      ∃ other, others[place]? = some other ∧ (test item = true → test other = true)) :
    (items.filter test).length ≤ (others.filter test).length := by
  induction items generalizing others with
  | nil => exact Nat.zero_le _
  | cons item rest induction =>
      obtain ⟨other, found, passes⟩ := carried 0 item rfl
      cases others with
      | nil => cases found
      | cons head tail =>
          cases found
          have shorter : (rest.filter test).length ≤ (tail.filter test).length :=
            induction fun place => carried (place + 1)
          rw [List.filter_cons, List.filter_cons]
          split
          · rename_i holds
            rw [if_pos (passes holds)]
            exact Nat.succ_le_succ shorter
          · split
            · exact Nat.le_succ_of_le shorter
            · exact shorter

namespace Network

def NodesGrow (before after : Network P) : Prop :=
  ∀ id node, before.node? id = some node →
    ∃ later, after.node? id = some later ∧ node.info.Grows later.info

def roles (network : Network P) : List (Nat × Bool) :=
  network.nodes.map fun node => node.info.role

def identities (network : Network P) : List (Nat × Location × Bool) :=
  network.nodes.map fun node => node.info.identity

variable {before middle after : Network P}

theorem NodesGrow.refl (network : Network P) : network.NodesGrow network :=
  fun _ node found => ⟨node, found, .refl node.info⟩

theorem NodesGrow.trans (first : before.NodesGrow middle) (second : middle.NodesGrow after) :
    before.NodesGrow after := by
  intro id node found
  obtain ⟨between, foundBetween, grown⟩ := first id node found
  obtain ⟨later, stays, grownLater⟩ := second id between foundBetween
  exact ⟨later, stays, grown.trans grownLater⟩

theorem NodesGrow.doneCount_le (grown : before.NodesGrow after) :
    before.snapshot.doneCount ≤ after.snapshot.doneCount := by
  apply length_filter_le
  intro place pictured found
  rw [snapshot, List.getElem?_map, Option.map_eq_some_iff] at found
  obtain ⟨node, present, rfl⟩ := found
  obtain ⟨later, stays, grows⟩ := grown place node present
  refine ⟨later.snapshot, ?_, ?_⟩
  · rw [snapshot, List.getElem?_map]
    exact congrArg (Option.map Node.snapshot) stays
  · intro done
    have positive : 0 < node.info.doneAt := of_decide_eq_true done
    have same := grows.doneAt (Nat.ne_of_gt positive)
    have still : 0 < later.info.doneAt := by rwa [same]
    exact decide_eq_true still

end Network

theorem Moment.Lawful.nodesGrow (lawful : moment.Lawful behaviour good)
    (keeps : moment.operates Op.overwrites = false) :
    moment.before.NodesGrow moment.after := by
  intro id node found
  obtain ⟨later, stays, treats⟩ := lawful.treats keeps found
  exact ⟨later, stays, treats.grows⟩

theorem Moment.Lawful.infos_eq {α : Type} {what : NodeInfo → α}
    (lawful : moment.Lawful behaviour good) (keeps : moment.operates Op.overwrites = false)
    (same : ∀ id before after, moment.Treats id before after → what after = what before)
    (started : moment.before.started = true) :
    moment.after.nodes.map (fun node => what node.info) =
      moment.before.nodes.map fun node => what node.info := by
  apply List.ext_getElem?
  intro id
  rw [List.getElem?_map, List.getElem?_map]
  cases found : moment.before.node? id with
  | none =>
      -- No node has come in, for that ends with the start.
      have absent : moment.after.node? id = none := by
        rw [Network.node?_eq_none_iff, lawful.nodeCount_of_frozen (.inl started)]
        exact Network.node?_eq_none_iff.mp found
      rw [Network.node?] at found absent
      rw [found, absent]
  | some node =>
      obtain ⟨later, present, treats⟩ := lawful.treats keeps found
      rw [Network.node?] at found present
      rw [found, present]
      exact congrArg some (same id _ _ treats)

variable {start stop : Network P} {past : List (Moment P)}

theorem Passes.counters_grow (passes : Passes (Moment.Lawful behaviour good) start past stop) :
    start.counters.Grow stop.counters :=
  passes.preserves (motive := fun _ network => start.counters.Grow network.counters) (.refl _)
    fun _ _ lawful grown => grown.trans lawful.counters_grow

theorem Passes.nodesGrow (passes : Passes (Moment.Lawful behaviour good) start past stop)
    (keeps : ∀ moment ∈ past, moment.operates Op.overwrites = false) : start.NodesGrow stop := by
  have careful : Passes (fun moment => moment.before.NodesGrow moment.after) start past stop :=
    passes.of_forall_mem fun moment member lawful => lawful.nodesGrow (keeps moment member)
  exact careful.preserves (motive := fun _ network => start.NodesGrow network) (.refl start)
    fun _ _ grows grown => grown.trans grows

theorem Passes.infos_eq {α : Type} {what : NodeInfo → α}
    (passes : Passes (Moment.Lawful behaviour good) start past stop)
    (keeps : ∀ moment ∈ past, moment.operates Op.overwrites = false)
    (same : ∀ moment ∈ past, ∀ id before after, moment.Treats id before after →
      what after = what before)
    (started : start.started = true) :
    stop.nodes.map (fun node => what node.info) =
      start.nodes.map fun node => what node.info := by
  have careful : Passes (fun moment => moment.before.started = true →
      moment.after.started = true ∧ moment.after.nodes.map (fun node => what node.info) =
        moment.before.nodes.map fun node => what node.info) start past stop :=
    passes.of_forall_mem fun moment member lawful running =>
      ⟨lawful.started_kept running,
        lawful.infos_eq (keeps moment member) (same moment member) running⟩
  have kept := careful.preserves (motive := fun _ network => network.started = true ∧
    network.nodes.map (fun node => what node.info) =
      start.nodes.map fun node => what node.info) ⟨started, rfl⟩
    fun _ _ step ⟨running, same⟩ =>
      ⟨(step running).1, (step running).2.trans same⟩
  exact kept.2

/-- From the start on there are always the same nodes. -/
theorem Passes.roles_eq (passes : Passes (Moment.Lawful behaviour good) start past stop)
    (keeps : ∀ moment ∈ past, moment.operates Op.overwrites = false)
    (started : start.started = true) : stop.roles = start.roles :=
  passes.infos_eq keeps (fun _ _ _ _ _ treats => treats.role) started

theorem Passes.identities_eq (passes : Passes (Moment.Lawful behaviour good) start past stop)
    (keeps : ∀ moment ∈ past, moment.operates Op.overwrites = false)
    (stays : ∀ moment ∈ past, moment.operates Op.moves = false) (started : start.started = true) :
    stop.identities = start.identities :=
  passes.infos_eq keeps
    (fun moment member _ _ _ treats => treats.identity (stays moment member)) started

end Growth

end Simnet
