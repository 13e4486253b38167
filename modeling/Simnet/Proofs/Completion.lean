import Simnet.Proofs.Growth
import Simnet.Proofs.NestedRuns

namespace Simnet

/-! When nodes finish. A node joins unfinished, and the first mark of a node that is there
decides on its time for good. -/

section Completion

variable {P : Protocol}

/-- The time that the first mark of a node gives it. -/
def firstMark (id : Nat) (past : List (Moment P)) : Option Nat :=
  past.findSome? (Moment.mark? id)

theorem firstMark_append (id : Nat) (past later : List (Moment P)) :
    firstMark id (past ++ later) = (firstMark id past).or (firstMark id later) :=
  List.findSome?_append

@[simp] theorem firstMark_singleton (id : Nat) (moment : Moment P) :
    firstMark id [moment] = moment.mark? id := by
  cases marked : moment.mark? id <;> simp [firstMark, marked]

theorem firstMark_pos {id time : Nat} {past : List (Moment P)}
    (marked : firstMark id past = some time) : time ≠ 0 := by
  obtain ⟨moment, -, marks⟩ := List.exists_of_findSome?_eq_some marked
  obtain ⟨-, -, rfl⟩ := Moment.mark?_eq_some marks
  exact Nat.ne_of_gt (Nat.le_max_left 1 _)

namespace Network

variable {before after : Network P} {id : Nat} {node : Node P}

theorem not_found_of_nodeCount (same : after.nodeCount = before.nodeCount)
    (absent : before.node? id = none) : after.node? id ≠ some node := by
  intro found
  have known := lt_nodeCount_of_node? found
  have beyond := node?_eq_none_iff.mp absent
  omega

theorem doneAt_of_joined {info : NodeInfo} {state : P.State} (unfinished : info.isDone = false)
    (absent : before.node? id = none) (found : (before.joined info state).node? id = some node) :
    node.info.doneAt = 0 := by
  have beyond := node?_eq_none_iff.mp absent
  simp only [joined, node?] at found
  rw [List.getElem?_append_right beyond, List.getElem?_singleton] at found
  split at found
  · cases found
    exact Nat.eq_zero_of_not_pos (of_decide_eq_false unfinished)
  · cases found

end Network

theorem Op.doneAt_of_newcomer {before after : Network P} {op : Op P} {answer : op.Answer}
    (quiet : op.isRun = false) (fresh : op.bringsFinished = false)
    (performed : op.perform idle before = some (answer, after)) {id : Nat} {node : Node P}
    (absent : before.node? id = none) (found : after.node? id = some node) :
    node.info.doneAt = 0 := by
  cases plain : op.editsNodes with
  | false =>
      have same := Network.nodeCount_of_cores (cores_perform quiet plain performed)
      exact absurd found (Network.not_found_of_nodeCount same absent)
  | true =>
      cases op with
      | addNode info state =>
          rcases Network.addNode_cases (Option.some.inj performed) with rfl | ⟨-, -, -, rfl⟩
          · rw [absent] at found
            cases found
          · exact Network.doneAt_of_joined fresh absent found
      | setState _ _ | setLocation _ _ | setInfo _ _ | setDown _ _ | markDone _
      | disconnect _ =>
          have same := Network.nodeCount_updateNode (Option.some.inj performed)
          exact absurd found (Network.not_found_of_nodeCount same absent)
      | _ => cases plain

variable {behaviour : Behaviour P} {good : Op P → Prop} {moment : Moment P} {id : Nat}

theorem Moment.Lawful.doneAt_of_newcomer (lawful : moment.Lawful behaviour good)
    (fresh : moment.operates Op.bringsFinished = false) {node : Node P}
    (absent : moment.before.node? id = none) (found : moment.after.node? id = some node) :
    node.info.doneAt = 0 := by
  cases lawful with
  | operated quiet _ performed => exact Op.doneAt_of_newcomer quiet fresh performed absent found
  | began started =>
      obtain ⟨-, -, rfl⟩ := Network.start_eq_ok started
      exact absurd found (Network.not_found_of_nodeCount rfl absent)
  | took _ =>
      exact absurd found
        (Network.not_found_of_nodeCount (Network.nodeCount_countEvent ..) absent)
  | rearmed | halted | finished =>
      exact absurd found (Network.not_found_of_nodeCount rfl absent)

/-- A moment at which no node is overwritten and none joins that has finished. -/
structure Moment.Plain (behaviour : Behaviour P) (moment : Moment P) : Prop where
  lawful : moment.Lawful behaviour fun _ => True
  keeps : moment.operates Op.overwrites = false
  fresh : moment.operates Op.bringsFinished = false

theorem Moment.Plain.origin (plain : moment.Plain behaviour) {later : Node P}
    (found : moment.after.node? id = some later) :
    (∃ node, moment.before.node? id = some node ∧
      moment.Treats id node.info later.info) ∨
    (moment.before.node? id = none ∧ later.info.doneAt = 0) := by
  cases present : moment.before.node? id with
  | none =>
      exact .inr ⟨rfl, plain.lawful.doneAt_of_newcomer plain.fresh present found⟩
  | some node =>
      obtain ⟨same, stays, treats⟩ := plain.lawful.treats plain.keeps present
      rw [found] at stays
      cases stays
      exact .inl ⟨node, rfl, treats⟩

/-- The marks of a past have given every node its time, and none to those who are not there. -/
structure Network.Marked (past : List (Moment P)) (network : Network P) : Prop where
  doneAt : ∀ {id node}, network.node? id = some node →
    node.info.doneAt = (firstMark id past).getD 0
  absent : ∀ {id}, network.node? id = none → firstMark id past = none

theorem Moment.Plain.marked (plain : moment.Plain behaviour) {past : List (Moment P)}
    (marked : moment.before.Marked past) : moment.after.Marked (past ++ [moment]) := by
  constructor
  · intro id later found
    rw [firstMark_append, firstMark_singleton]
    rcases plain.origin found with ⟨node, present, treats⟩ | ⟨absent, unfinished⟩
    · rw [treats.doneAt, marked.doneAt present]
      cases first : firstMark id past with
      | none => rfl
      | some time => exact if_neg (firstMark_pos first)
    · rw [marked.absent absent, mark?_of_absent absent]
      exact unfinished
  · intro id absent
    have before : moment.before.node? id = none := by
      cases present : moment.before.node? id with
      | none => rfl
      | some node =>
          obtain ⟨later, stays, -⟩ := plain.lawful.treats plain.keeps present
          rw [absent] at stays
          cases stays
    rw [firstMark_append, firstMark_singleton, marked.absent before, mark?_of_absent before]
    rfl

def Network.DoneByNow (network : Network P) : Prop :=
  ∀ id node, network.node? id = some node → node.info.doneAt ≤ max 1 network.time

theorem Moment.Plain.doneByNow (plain : moment.Plain behaviour)
    (forth : moment.before.time ≤ moment.after.time) (early : moment.before.DoneByNow) :
    moment.after.DoneByNow := by
  have clock : max 1 moment.before.time ≤ max 1 moment.after.time := by omega
  intro id later found
  rcases plain.origin found with ⟨node, present, treats⟩ | ⟨-, unfinished⟩
  · rw [treats.doneAt]
    split
    · cases marked : moment.mark? id with
      | none => exact Nat.zero_le _
      | some time =>
          obtain ⟨-, -, rfl⟩ := mark?_eq_some marked
          exact clock
    · exact Nat.le_trans (early id node present) clock
  · rw [unfinished]
    exact Nat.zero_le _

variable {start stop : Network P} {past : List (Moment P)}

theorem Passes.marked (passes : Passes (Moment.Plain behaviour) start past stop)
    (nobody : start.nodes = []) : stop.Marked past := by
  have absent : ∀ id, start.node? id = none := by
    intro id
    rw [Network.node?, nobody]
    rfl
  refine passes.preserves (motive := fun earlier network => network.Marked earlier) ?_
    fun _ _ plain marked => plain.marked marked
  constructor
  · intro id node found
    rw [absent id] at found
    cases found
  · exact fun _ => rfl

theorem Passes.doneByNow (passes : Passes (Moment.Plain behaviour) start past stop)
    (nobody : start.nodes = [])
    (forth : ∀ moment ∈ past, moment.before.time ≤ moment.after.time) : stop.DoneByNow := by
  have timed : Passes (fun moment => moment.Plain behaviour ∧
      moment.before.time ≤ moment.after.time) start past stop :=
    passes.of_forall_mem fun moment member plain => ⟨plain, forth moment member⟩
  refine timed.preserves (motive := fun _ network => network.DoneByNow) ?_
    fun _ moment ⟨plain, forth⟩ early => plain.doneByNow forth early
  intro id node found
  rw [Network.node?, nobody] at found
  cases found

theorem Moment.Lawful.marks (lawful : moment.Lawful behaviour good)
    (keeps : moment.operates Op.overwrites = false) {node later : Node P}
    (found : moment.before.node? id = some node) (stays : moment.after.node? id = some later)
    (changed : later.info.doneAt ≠ node.info.doneAt) :
    moment.happening = .operated (.markDone id) ∧ node.info.doneAt = 0 ∧
      later.info.doneAt = max 1 moment.before.time := by
  obtain ⟨same, present, treats⟩ := lawful.treats keeps found
  rw [stays] at present
  cases present
  have doneAt := treats.doneAt
  split at doneAt
  · rename_i unfinished
    cases marked : moment.mark? id with
    | none =>
        rw [marked] at doneAt
        exact absurd (doneAt.trans unfinished.symm) changed
    | some time =>
        obtain ⟨marks, -, rfl⟩ := mark?_eq_some marked
        rw [marked] at doneAt
        exact ⟨marks, unfinished, doneAt⟩
  · exact absurd doneAt changed

/-- From any moment of a life to any later one no counter goes back. As long as no node is
overwritten no count of a node does either, and a node that has finished keeps its time. -/
theorem Program.only_grows {α : Type} (behaviour : Behaviour P) (config : NetworkConfig)
    (latency : Latency) (genesis : P.Payload) (life : Program P α) (fuel : Nat)
    {past later rest : List (Moment P)}
    (lived : (life.record (Network.recordRun behaviour fuel)
      (.new config latency genesis)).history = past ++ later ++ rest)
    (early late : Network P) (before : early = stateAfter (.new config latency genesis) past)
    (reached : late = stateAfter (.new config latency genesis) (past ++ later)) :
    early.counters.Grow late.counters ∧
    ((∀ moment ∈ later, moment.operates Op.overwrites = false) →
      early.NodesGrow late ∧
      early.snapshot.doneCount ≤ late.snapshot.doneCount ∧
      (∀ moment ∈ later, ∀ id node after, moment.before.node? id = some node →
        moment.after.node? id = some after → after.info.doneAt ≠ node.info.doneAt →
          moment.happening = .operated (.markDone id) ∧ node.info.doneAt = 0 ∧
            after.info.doneAt = max 1 moment.before.time) ∧
      (early.started = true → late.roles = early.roles ∧
        ((∀ moment ∈ later, moment.operates Op.moves = false) →
          late.identities = early.identities))) ∧
    ((∀ moment ∈ past ++ later, moment.operates Op.overwrites = false) →
      (∀ moment ∈ past ++ later, moment.operates Op.bringsFinished = false) →
        ∀ id node, late.node? id = some node →
          node.info.doneAt = (firstMark id (past ++ later)).getD 0 ∧
          (behaviour.Calm → node.info.doneAt ≤ max 1 late.time)) := by
  have passes := past_passes lived
  obtain ⟨middle, first, second⟩ := passes.split
  rw [← reached] at passes second
  obtain rfl : middle = early := first.stop_eq.trans before.symm
  refine ⟨second.counters_grow, ?_, ?_⟩
  · intro keeps
    have grown := second.nodesGrow keeps
    refine ⟨grown, grown.doneCount_le, ?_, fun started => ⟨second.roles_eq keeps started,
      fun stays => second.identities_eq keeps stays started⟩⟩
    intro moment member id node after found stays changed
    exact (second.lawful moment member).marks (keeps moment member) found stays changed
  · intro keeps fresh id node found
    have plain : Passes (Moment.Plain behaviour) (.new config latency genesis) (past ++ later)
        late :=
      passes.of_forall_mem fun moment member lawful =>
        ⟨lawful, keeps moment member, fresh moment member⟩
    refine ⟨(plain.marked rfl).doneAt found, fun calm => ?_⟩
    have obeys := life.life_punctual calm fuel (.new config latency genesis)
    have forward := (obeys.past lived).lawful
    have forth := passes.time_le rfl fun moment member => (forward moment member).forward
    exact plain.doneByNow rfl forth id node found

def relay.finishing : Behaviour relay where
  deliver _ _ receiver := ExceptT.mk (.perform (.markDone receiver))
  fire _ owner := ExceptT.mk (.perform (.markDone owner))

def relay.finish : Program relay (Except Error Unit) := do
  let _ ← Program.perform (.addNode (.new ⟨0, 0, none⟩ false) ())
  let _ ← Program.perform (.markDone 1)
  let _ ← Program.perform (.addNode (.new ⟨3, 4, none⟩ true) ())
  let _ ← Program.perform (.addNode (.new ⟨6, 8, none⟩ false) ())
  let _ ← Program.perform (.markDone 0)
  let _ ← Program.perform (P := relay) (.sendToMany 0 0 0 [1])
  let _ ← Program.perform (P := relay) (.schedule () 3 1 (.periodic 4))
  Program.perform (.runUntil 9)

def relay.finished : List (Moment relay) :=
  (relay.finish.record (Network.recordRun relay.finishing 5) relay.initial).history

theorem relay_only_grows :
    (stateAfter relay.initial (relay.finished.take 8)).counters.Grow
      (stateAfter relay.initial relay.finished).counters ∧
    (stateAfter relay.initial (relay.finished.take 8)).NodesGrow
      (stateAfter relay.initial relay.finished) ∧
    (stateAfter relay.initial relay.finished).identities =
      (stateAfter relay.initial (relay.finished.take 8)).identities ∧
    (stateAfter relay.initial (relay.finished.take 8)).snapshot.doneCount = 1 ∧
    (stateAfter relay.initial relay.finished).snapshot.doneCount = 2 ∧
    ∃ node, (stateAfter relay.initial relay.finished).node? 1 = some node ∧
      node.info.doneAt = 2 ∧ node.info.doneAt ≤ max 1 9 := by
  have whole : relay.finished.take 8 ++ relay.finished.drop 8 = relay.finished :=
    List.take_append_drop 8 relay.finished
  have lived : (relay.finish.record (Network.recordRun relay.finishing 5)
      relay.initial).history = relay.finished.take 8 ++ relay.finished.drop 8 ++ [] := by
    rw [List.append_nil, whole]
    rfl
  obtain ⟨counters, nodes, times⟩ :=
    Program.only_grows relay.finishing {} (LatencyModel.fixed 2).latency () relay.finish 5
      lived _ (stateAfter relay.initial relay.finished) rfl (by rw [whole]; rfl)
  obtain ⟨grown, -, -, same⟩ := nodes (by decide +kernel)
  have calm : relay.finishing.Calm :=
    ⟨fun _ _ _ => ⟨rfl, fun _ => trivial⟩, fun _ _ => ⟨rfl, fun _ => trivial⟩⟩
  obtain ⟨doneAt, bounded⟩ := times (by decide +kernel) (by decide +kernel) 1 _ rfl
  refine ⟨counters, grown, (same (by decide +kernel)).2 (by decide +kernel), by decide +kernel,
    by decide +kernel, _, rfl, ?_, bounded calm⟩
  rw [doneAt, whole]
  decide +kernel

def relay.importing : Program relay (Except Error Unit) := do
  let _ ← Program.perform (.addNode { NodeInfo.new ⟨0, 0, none⟩ false with doneAt := 500 } ())
  let _ ← Program.perform (.runUntil 0)
  let _ ← Program.perform (P := relay) (.setLocation 0 ⟨3, 4, none⟩)
  Program.perform (.setInfo 0 (.new ⟨3, 4, none⟩ false))

def relay.imported : List (Moment relay) :=
  (relay.importing.record (Network.recordRun relay.behaviour 1) relay.initial).history

/-- A node joins that finished elsewhere. Once the network has started it is moved, and then
put back to what it was before it finished. -/
theorem relay_import_unmarked :
    relay.behaviour.Calm ∧
    (stateAfter relay.initial (relay.imported.take 3)).time = 0 ∧
    (stateAfter relay.initial (relay.imported.take 3)).started = true ∧
    firstMark 0 (relay.imported.take 3) = none ∧
    (∃ node, (stateAfter relay.initial (relay.imported.take 3)).node? 0 = some node ∧
      node.info.doneAt = 500) ∧
    (stateAfter relay.initial (relay.imported.take 4)).identities ≠
      (stateAfter relay.initial (relay.imported.take 3)).identities ∧
    ∃ node, (stateAfter relay.initial relay.imported).node? 0 = some node ∧
      node.info.doneAt = 0 := by
  exact ⟨relay_calm, rfl, rfl, rfl, ⟨_, rfl, rfl⟩, by decide +kernel, _, rfl, rfl⟩

end Completion

end Simnet
