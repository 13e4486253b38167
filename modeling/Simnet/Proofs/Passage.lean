import Simnet.Proofs.Effect
import Simnet.Proofs.History

namespace Simnet

/-! Histories as passages. Every moment of a recording is one of a few lawful kinds
and starts from the network that the moment before it left, whatever the bodies do and
however the run ends. So what one lawful moment preserves, a whole life preserves. -/

/-- The moments that can be, when only `good` operations are used. -/
inductive Moment.Lawful {P : Protocol} (behaviour : Behaviour P) (good : Op P → Prop) :
    Moment P → Prop
  | operated {before after : Network P} {op : Op P} {answer : op.Answer}
      (quiet : op.isRun = false) (permitted : good op)
      (performed : op.perform Op.idle before = some (answer, after)) :
      Lawful behaviour good ⟨before, .operated op, after⟩
  | began {before after : Network P} {deadline : Nat}
      (started : before.start deadline = .ok after) :
      Lawful behaviour good ⟨before, .began deadline, after⟩
  | took {before : Network P} {queue : EventQueue (Event P)} {key : EventKey}
      {event : Event P} {deadline : Nat}
      (popped : before.queue.popDue deadline = some ((key, event), queue)) :
      Lawful behaviour good
        ⟨before,
          .took key event ((before.arrive queue key.time).reaction behaviour key.time event),
          (before.arrive queue key.time).countEvent event
            ((before.arrive queue key.time).reaction behaviour key.time event)⟩
  | rearmed (network : Network P) (record : ScheduledTask P) (next : Nat) :
      Lawful behaviour good
        ⟨network, .rearmed record next, network.pushTask next record⟩
  | halted (network : Network P) :
      Lawful behaviour good ⟨network, .halted, { network with halted := true }⟩
  | finished {network : Network P} {deadline : Nat}
      (idle : network.queue.popDue deadline = none) :
      Lawful behaviour good
        ⟨network, .finished deadline, { network with time := deadline }⟩

section Passages

variable {P : Protocol}

/-- The moments follow one another from `start` on and end at the last network. -/
def Passes (law : Moment P → Prop) : Network P → List (Moment P) → Network P → Prop
  | start, [], stop => stop = start
  | start, moment :: rest, stop =>
      moment.before = start ∧ law moment ∧ Passes law moment.after rest stop

def stateAfter : (start : Network P) → List (Moment P) → Network P
  | start, [] => start
  | _, moment :: rest => stateAfter moment.after rest

variable {law : Moment P → Prop} {start middle stop : Network P}
variable {past rest : List (Moment P)}

theorem Passes.nil (network : Network P) : Passes law network [] network := rfl

theorem Passes.append (first : Passes law start past middle)
    (second : Passes law middle rest stop) : Passes law start (past ++ rest) stop := by
  induction past generalizing start with
  | nil =>
      cases first
      exact second
  | cons moment past induction =>
      obtain ⟨before, lawful, later⟩ := first
      exact ⟨before, lawful, induction later⟩

theorem Passes.split (passes : Passes law start (past ++ rest) stop) :
    ∃ middle, Passes law start past middle ∧ Passes law middle rest stop := by
  induction past generalizing start with
  | nil => exact ⟨start, .nil start, passes⟩
  | cons moment past induction =>
      obtain ⟨before, lawful, later⟩ := passes
      obtain ⟨middle, first, second⟩ := induction later
      exact ⟨middle, ⟨before, lawful, first⟩, second⟩

theorem Passes.stop_eq (passes : Passes law start past stop) :
    stop = stateAfter start past := by
  induction past generalizing start with
  | nil => exact passes
  | cons moment past induction =>
      obtain ⟨-, -, later⟩ := passes
      exact induction later

theorem Passes.of_forall_mem {other : Moment P → Prop} (passes : Passes law start past stop)
    (implies : ∀ moment ∈ past, law moment → other moment) : Passes other start past stop := by
  induction past generalizing start with
  | nil => exact passes
  | cons moment past induction =>
      obtain ⟨before, lawful, later⟩ := passes
      rw [List.forall_mem_cons] at implies
      exact ⟨before, implies.1 lawful, induction later implies.2⟩

theorem Passes.weaken {weaker : Moment P → Prop} (passes : Passes law start past stop)
    (implies : ∀ moment, law moment → weaker moment) : Passes weaker start past stop :=
  passes.of_forall_mem fun moment _ => implies moment

/-- What holds at the start and is kept by every lawful moment holds ever after. The
statement may speak of the moments that have passed. -/
theorem Passes.preserves {motive : List (Moment P) → Network P → Prop}
    (passes : Passes law start past stop) (initial : motive [] start)
    (step : ∀ earlier moment, law moment → motive earlier moment.before →
      motive (earlier ++ [moment]) moment.after) : motive past stop := by
  suffices general : ∀ earlier start, motive earlier start →
      Passes law start past stop → motive (earlier ++ past) stop from
    general [] start initial passes
  clear initial passes
  induction past with
  | nil =>
      intro earlier start holds passes
      cases passes
      simpa using holds
  | cons moment past induction =>
      intro earlier start holds passes
      obtain ⟨rfl, lawful, later⟩ := passes
      rw [List.append_cons]
      exact induction _ _ (step earlier moment lawful holds) later

variable {motive : Network P → Prop} {cause effect : Moment P → Prop}

theorem Passes.forall_mem (passes : Passes law start past stop) (initial : motive start)
    (kept : ∀ moment, law moment → motive moment.before → motive moment.after)
    (shows : ∀ moment, law moment → motive moment.before → effect moment) :
    ∀ moment ∈ past, effect moment := by
  induction past generalizing start with
  | nil => exact List.forall_mem_nil effect
  | cons moment past induction =>
      obtain ⟨rfl, lawful, later⟩ := passes
      rw [List.forall_mem_cons]
      exact ⟨shows moment lawful initial, induction later (kept moment lawful initial)⟩

theorem Passes.lawful (passes : Passes law start past stop) : ∀ moment ∈ past, law moment :=
  passes.forall_mem (motive := fun _ => True) trivial (fun _ _ _ => trivial)
    fun _ lawful _ => lawful

theorem Passes.pairwise (passes : Passes law start past stop)
    (brings : ∀ moment, law moment → cause moment → motive moment.after)
    (kept : ∀ moment, law moment → motive moment.before → motive moment.after)
    (shows : ∀ moment, law moment → motive moment.before → effect moment) :
    past.Pairwise fun earlier later => cause earlier → effect later := by
  induction past generalizing start with
  | nil => exact .nil
  | cons moment past induction =>
      obtain ⟨-, lawful, later⟩ := passes
      refine .cons ?_ (induction later)
      intro other member caused
      exact later.forall_mem (brings moment lawful caused) kept shows other member

end Passages

namespace Recording

variable {P : Protocol} {α β : Type} {law : Moment P → Prop}

/-- The history passes lawfully from `start` on, to the network of the result. -/
def Obeys (law : Moment P → Prop) (start : Network P) (recording : Recording P α) :
    Prop :=
  ∃ stop, Passes law start recording.history stop ∧
    ∀ value network, recording.result = some (value, network) → network = stop

theorem obeys_still (value : α) (network : Network P) :
    (still value network).Obeys law network := by
  refine ⟨network, .nil network, ?_⟩
  intro other after result
  cases result
  rfl

theorem obeys_single {before after : Network P} {happening : Happening P} {value : α}
    (lawful : law ⟨before, happening, after⟩) :
    (single before happening value after).Obeys law before := by
  refine ⟨after, ⟨rfl, lawful, .nil after⟩, ?_⟩
  intro other stop result
  cases result
  rfl

theorem obeys_nothing (network : Network P) :
    (⟨[], none⟩ : Recording P α).Obeys law network := by
  refine ⟨network, .nil network, ?_⟩
  intro value after result
  cases result

theorem Obeys.weaken {weaker : Moment P → Prop} {start : Network P}
    {recording : Recording P α} (obeys : recording.Obeys law start)
    (implies : ∀ moment, law moment → weaker moment) : recording.Obeys weaker start := by
  obtain ⟨stop, passes, ends⟩ := obeys
  exact ⟨stop, passes.weaken implies, ends⟩

theorem Obeys.bind {start : Network P} {first : Recording P α}
    {next : α → Network P → Recording P β} (obeys : first.Obeys law start)
    (continues : ∀ value network, first.result = some (value, network) →
      (next value network).Obeys law network) :
    (first.bind next).Obeys law start := by
  obtain ⟨middle, passes, ends⟩ := obeys
  unfold Recording.bind
  cases result : first.result with
  | none =>
      refine ⟨middle, passes, ?_⟩
      intro value network impossible
      cases impossible
  | some ended =>
      obtain ⟨value, network⟩ := ended
      obtain rfl := ends value network result
      obtain ⟨stop, later, laterEnds⟩ := continues value network result
      exact ⟨stop, passes.append later, laterEnds⟩

end Recording

def Recorder.Obeys {P : Protocol} (recorder : Recorder P) (law : Moment P → Prop) : Prop :=
  ∀ deadline network, (recorder deadline network).Obeys law network

def Behaviour.All {P : Protocol} (good : Op P → Prop) (behaviour : Behaviour P) : Prop :=
  (∀ message sender receiver, (behaviour.deliver message sender receiver).run.All good) ∧
    ∀ task owner, (behaviour.fire task owner).run.All good

section Obedience

variable {P : Protocol} {α : Type} {good : Op P → Prop}

theorem Program.all_of_forall (always : ∀ op, good op) (program : Program P α) :
    program.All good := by
  induction program with
  | pure value => trivial
  | call op next induction => exact ⟨always op, induction⟩

theorem Behaviour.all_of_forall (always : ∀ op, good op) (behaviour : Behaviour P) :
    behaviour.All good :=
  ⟨fun _ _ _ => Program.all_of_forall always _, fun _ _ => Program.all_of_forall always _⟩

theorem Behaviour.All.body {behaviour : Behaviour P} (all : behaviour.All good)
    (event : Event P) : (event.body behaviour).run.All good := by
  cases event with
  | delivery sender receiver message => exact all.1 message sender receiver
  | task record => exact all.2 record.task record.owner

variable {behaviour : Behaviour P} {recorder : Recorder P} {law : Moment P → Prop}

theorem Op.record_obeys
    (operates : ∀ {before after : Network P} {op : Op P} {answer : op.Answer},
      op.isRun = false → good op → op.perform idle before = some (answer, after) →
        law ⟨before, .operated op, after⟩)
    (runs : ∀ op : Op P, op.isRun = true → good op → recorder.Obeys law)
    {op : Op P} (permitted : good op) (network : Network P) :
    (op.record recorder network).Obeys law network := by
  cases quiet : op.isRun with
  | false =>
      rw [record_of_quiet quiet]
      cases performed : op.perform idle network with
      | none => exact Recording.obeys_nothing network
      | some ended => exact Recording.obeys_single (operates quiet permitted performed)
  | true =>
      have obeys := runs op quiet permitted
      cases op with
      | runUntil deadline => exact obeys deadline network
      | runFor milliseconds =>
          simp only [record]
          cases network.deadlineAfter milliseconds with
          | error error => exact Recording.obeys_still _ network
          | ok deadline => exact obeys deadline network
      | runSeconds seconds =>
          simp only [record]
          cases network.deadlineAfterSeconds seconds with
          | error error => exact Recording.obeys_still _ network
          | ok deadline => exact obeys deadline network
      | _ => cases quiet

theorem Program.record_obeys
    (operates : ∀ {before after : Network P} {op : Op P} {answer : op.Answer},
      op.isRun = false → good op → op.perform Op.idle before = some (answer, after) →
        law ⟨before, .operated op, after⟩)
    (runs : ∀ op : Op P, op.isRun = true → good op → recorder.Obeys law)
    {program : Program P α} (all : program.All good) (network : Network P) :
    (program.record recorder network).Obeys law network := by
  induction program generalizing network with
  | pure value => exact Recording.obeys_still value network
  | call op next induction =>
      obtain ⟨permitted, later⟩ := all
      exact (Op.record_obeys operates runs permitted network).bind
        fun answer after _ => induction answer (later answer) after

/-! Runs. A task comes back only if its owner was found when it was taken off the queue,
and nodes stay. -/

def Reaction.next? : Reaction → Option Nat
  | skipped next => next
  | acted next => next
  | _ => none

/-- A lawful moment at which no task of an unknown owner comes back. -/
structure Moment.Grounded (behaviour : Behaviour P) (good : Op P → Prop) (moment : Moment P) :
    Prop where
  lawful : moment.Lawful behaviour good
  owned : ∀ record next, moment.happening = .rearmed record next →
    record.owner < moment.before.nodeCount

def Happening.isRearmed : Happening P → Bool
  | rearmed _ _ => true
  | _ => false

theorem Moment.Lawful.grounded {moment : Moment P} (lawful : moment.Lawful behaviour good)
    (other : moment.happening.isRearmed = false) : moment.Grounded behaviour good := by
  refine ⟨lawful, ?_⟩
  intro record next rearmed
  rw [rearmed] at other
  cases other

@[simp] theorem Network.nodeCount_countEvent (network : Network P) (event : Event P)
    (reaction : Reaction) :
    (network.countEvent event reaction).nodeCount = network.nodeCount := by
  cases event <;> cases reaction <;> simp [countEvent, nodeCount]

theorem Moment.Lawful.nodeCount_mono {moment : Moment P}
    (lawful : moment.Lawful behaviour good) :
    moment.before.nodeCount ≤ moment.after.nodeCount := by
  cases lawful with
  | operated quiet _ performed =>
      obtain ⟨_, effect⟩ := Network.effect_perform False quiet False.elim performed
      exact effect.growth
  | @began before after deadline started =>
      unfold Network.start at started
      split at started
      · cases started
      · split at started
        · cases started
        · split at started
          · cases started
            exact Nat.le_refl _
          · split at started <;> cases started
            exact Nat.le_refl _
  | took _ =>
      rw [Network.nodeCount_countEvent]
      exact Nat.le_refl _
  | rearmed _ _ _ | halted _ | finished _ => exact Nat.le_refl _

theorem Recording.Obeys.nodeCount_mono {recording : Recording P α} {start after : Network P}
    {value : α} (obeys : recording.Obeys (Moment.Grounded behaviour good) start)
    (result : recording.result = some (value, after)) :
    start.nodeCount ≤ after.nodeCount := by
  obtain ⟨stop, passes, ends⟩ := obeys
  rw [ends value after result]
  refine passes.preserves (motive := fun _ network => start.nodeCount ≤ network.nodeCount)
    (Nat.le_refl _) ?_
  exact fun _ _ grounded above => Nat.le_trans above grounded.lawful.nodeCount_mono

namespace Network

theorem known_of_reaction {network : Network P} {event : Event P} {time next : Nat}
    (comes : (network.reaction behaviour time event).next? = some next) :
    event.node < network.nodeCount := by
  cases event with
  | delivery sender receiver message =>
      simp only [reaction] at comes
      cases found : network.node? receiver with
      | none => simp [found, Reaction.next?] at comes
      | some node => exact lt_nodeCount_of_node? found
  | task record =>
      simp only [reaction] at comes
      cases found : network.node? record.owner with
      | none => simp [found, Reaction.next?] at comes
      | some node => exact lt_nodeCount_of_node? found

theorem recordRearm_grounded {network : Network P} {event : Event P} {next : Option Nat}
    (known : ∀ instant, next = some instant → event.node < network.nodeCount) :
    (network.recordRearm event next).Obeys (Moment.Grounded behaviour good) network := by
  cases event with
  | delivery _ _ _ => exact Recording.obeys_still _ network
  | task record =>
      cases next with
      | none => exact Recording.obeys_still _ network
      | some next =>
          refine Recording.obeys_single ⟨.rearmed network record next, ?_⟩
          intro other instant comes
          cases comes
          exact known next rfl

theorem recordReaction_grounded
    (obeys : recorder.Obeys (Moment.Grounded behaviour good))
    (all : behaviour.All good) {network : Network P} {event : Event P}
    {reaction : Reaction}
    (known : ∀ instant, reaction.next? = some instant → event.node < network.nodeCount) :
    (network.recordReaction behaviour recorder event reaction).Obeys
      (Moment.Grounded behaviour good) network := by
  cases reaction with
  | refused _ | dropped | retired => exact Recording.obeys_still _ network
  | skipped next => exact recordRearm_grounded known
  | acted next =>
      have body : ((event.body behaviour).run.record recorder network).Obeys
          (Moment.Grounded behaviour good) network :=
        Program.record_obeys
          (fun quiet permitted performed => Moment.Lawful.grounded (.operated quiet permitted performed) rfl)
          (fun _ _ _ => obeys) (all.body event) network
      refine body.bind ?_
      intro outcome after result
      have stays := body.nodeCount_mono result
      cases outcome with
      | error error => exact Recording.obeys_still _ after
      | ok _ =>
          exact recordRearm_grounded fun instant comes =>
            Nat.lt_of_lt_of_le (known instant comes) stays

theorem recordExecute_grounded
    (obeys : recorder.Obeys (Moment.Grounded behaviour good))
    (all : behaviour.All good) {network : Network P} {queue : EventQueue (Event P)}
    {key : EventKey} {event : Event P} {deadline : Nat}
    (popped : network.queue.popDue deadline = some ((key, event), queue)) :
    (network.recordExecute behaviour recorder queue key event).Obeys
      (Moment.Grounded behaviour good) network := by
  refine (Recording.obeys_single (Moment.Lawful.grounded (.took popped) rfl)).bind ?_
  intro _ counted result
  cases result
  refine (recordReaction_grounded obeys all ?_).bind ?_
  · intro instant comes
    rw [nodeCount_countEvent]
    exact known_of_reaction comes
  · intro outcome after _
    cases outcome with
    | error source => exact Recording.obeys_single (Moment.Lawful.grounded (.halted after) rfl)
    | ok _ => exact Recording.obeys_still _ after

theorem recordStart_grounded
    (obeys : recorder.Obeys (Moment.Grounded behaviour good)) :
    (recordStart recorder).Obeys (Moment.Grounded behaviour good) := by
  intro deadline network
  unfold recordStart
  cases started : network.start deadline with
  | error error => exact Recording.obeys_still _ network
  | ok after =>
      exact (Recording.obeys_single (Moment.Lawful.grounded (.began started) rfl)).bind
        fun _ middle _ => obeys deadline middle

theorem recordDrain_grounded (all : behaviour.All good) (fuel : Nat) :
    (recordDrain behaviour fuel).Obeys (Moment.Grounded behaviour good) := by
  induction fuel with
  | zero => exact fun deadline network => Recording.obeys_nothing network
  | succ fuel induction =>
      intro deadline network
      unfold recordDrain
      cases popped : network.queue.popDue deadline with
      | none => exact Recording.obeys_single (Moment.Lawful.grounded (.finished popped) rfl)
      | some taken =>
          refine (recordExecute_grounded (recordStart_grounded induction) all popped).bind ?_
          intro outcome after _
          cases outcome with
          | error error => exact Recording.obeys_still _ after
          | ok _ => exact induction deadline after

theorem recordRun_grounded (all : behaviour.All good) (fuel : Nat) :
    (recordRun behaviour fuel).Obeys (Moment.Grounded behaviour good) :=
  recordStart_grounded (recordDrain_grounded all fuel)

theorem recordRun_obeys (all : behaviour.All good) (fuel : Nat) :
    (recordRun behaviour fuel).Obeys (Moment.Lawful behaviour good) :=
  fun deadline network =>
    (recordRun_grounded all fuel deadline network).weaken fun _ grounded => grounded.lawful

end Network

theorem Program.life_grounded (bodies : behaviour.All good) {life : Program P α}
    (all : life.All good) (fuel : Nat) (network : Network P) :
    (life.record (Network.recordRun behaviour fuel) network).Obeys
      (Moment.Grounded behaviour good) network :=
  Program.record_obeys
    (fun quiet permitted performed => Moment.Lawful.grounded (.operated quiet permitted performed) rfl)
    (fun _ _ _ => Network.recordRun_grounded bodies fuel) all network

theorem Program.life_obeys (bodies : behaviour.All good) {life : Program P α}
    (all : life.All good) (fuel : Nat) (network : Network P) :
    (life.record (Network.recordRun behaviour fuel) network).Obeys
      (Moment.Lawful behaviour good) network :=
  (life_grounded bodies all fuel network).weaken fun _ grounded => grounded.lawful

theorem Recording.Obeys.past {recording : Recording P α} {start : Network P}
    {past rest : List (Moment P)} (obeys : recording.Obeys law start)
    (lived : recording.history = past ++ rest) :
    Passes law start past (stateAfter start past) := by
  obtain ⟨stop, passes, -⟩ := obeys
  rw [lived] at passes
  obtain ⟨middle, early, -⟩ := passes.split
  rw [← early.stop_eq]
  exact early

theorem Program.past_passes {behaviour : Behaviour P} {life : Program P α} {fuel : Nat}
    {start : Network P} {past rest : List (Moment P)}
    (lived : (life.record (Network.recordRun behaviour fuel) start).history = past ++ rest) :
    Passes (Moment.Lawful behaviour fun _ => True) start past (stateAfter start past) :=
  (life_obeys (behaviour.all_of_forall fun _ => trivial)
    (life.all_of_forall fun _ => trivial) fuel start).past lived

end Obedience

def relay.opened (hops : Nat) : Network relay :=
  stateAfter relay.initial
    ((relay.exchange hops 0).record (Network.recordRun relay.behaviour 1)
      relay.initial).history

end Simnet
