import Simnet.Proofs.Calm

namespace Simnet

/-! The order of what happens around an event. A run takes one event after the other off
the queue. Where no body runs the network, nothing else is taken off before a task has
come back that is to, unless the task or its body fails, and after a failure nothing is
taken off any more. The phases say what a history leaves open. -/

section Phases

variable {P : Protocol} {α β : Type}

inductive Phase (P : Protocol)
  | between
  /-- The body of a task is running, and the task is to come back afterwards. -/
  | returning (record : ScheduledTask P) (next : Nat)
  | refused

inductive Phase.Turn : Phase P → Happening P → Phase P → Prop
  | operated (phase : Phase P) (op : Op P) : Turn phase (.operated op) phase
  | began (deadline : Nat) : Turn .between (.began deadline) .between
  | finished (deadline : Nat) : Turn .between (.finished deadline) .between
  | halted (phase : Phase P) : Turn phase .halted phase
  | refuses (key : EventKey) (event : Event P) (error : Error) :
      Turn .between (.took key event (.refused error)) .refused
  | returns (key : EventKey) (record : ScheduledTask P) {reaction : Reaction} {next : Nat}
      (comes : reaction.next? = some next) :
      Turn .between (.took key (.task record) reaction) (.returning record next)
  | passes (key : EventKey) (event : Event P) {reaction : Reaction}
      (accepted : ∀ error, reaction ≠ .refused error) (leaves : reaction.next? = none) :
      Turn .between (.took key event reaction) .between
  | rearmed (record : ScheduledTask P) (next : Nat) :
      Turn (.returning record next) (.rearmed record next) .between

def Orderly : Phase P → List (Moment P) → Phase P → Prop
  | first, [], last => last = first
  | first, moment :: rest, last =>
      ∃ middle, first.Turn moment.happening middle ∧ Orderly middle rest last

namespace Orderly

variable {first middle last : Phase P} {past rest : List (Moment P)}

theorem append (before : Orderly first past middle) (after : Orderly middle rest last) :
    Orderly first (past ++ rest) last := by
  induction past generalizing first with
  | nil =>
      cases before
      exact after
  | cons moment past induction =>
      obtain ⟨next, turn, later⟩ := before
      exact ⟨next, turn, induction later⟩

theorem split (orderly : Orderly first (past ++ rest) last) :
    ∃ middle, Orderly first past middle ∧ Orderly middle rest last := by
  induction past generalizing first with
  | nil => exact ⟨first, rfl, orderly⟩
  | cons moment past induction =>
      obtain ⟨next, turn, later⟩ := orderly
      obtain ⟨middle, before, after⟩ := induction later
      exact ⟨middle, ⟨next, turn, before⟩, after⟩

theorem refused (orderly : Orderly .refused past last) : last = .refused := by
  induction past with
  | nil => exact orderly
  | cons moment past induction =>
      obtain ⟨middle, turn, later⟩ := orderly
      generalize moment.happening = happening at turn
      cases turn with
      | operated | halted => exact induction later

theorem accepted (orderly : Orderly first past last) (settled : last ≠ .refused) :
    ∀ moment ∈ past, ∀ key event error, moment.happening ≠ .took key event (.refused error) := by
  induction past generalizing first with
  | nil => exact List.forall_mem_nil _
  | cons moment past induction =>
      obtain ⟨middle, turn, later⟩ := orderly
      rw [List.forall_mem_cons]
      refine ⟨?_, induction later⟩
      intro key event error refused
      rw [refused] at turn
      cases turn with
      | refuses => exact settled later.refused
      | returns _ _ comes => cases comes
      | passes _ _ accepted => exact accepted error rfl

end Orderly

theorem Passes.preserves_orderly {law : Moment P → Prop} {start stop : Network P}
    {past : List (Moment P)} {first last : Phase P}
    {motive : List (Moment P) → Phase P → Network P → Prop}
    (passes : Passes law start past stop) (orderly : Orderly first past last)
    (initial : motive [] first start)
    (step : ∀ earlier moment phase next, law moment → phase.Turn moment.happening next →
      motive earlier phase moment.before → motive (earlier ++ [moment]) next moment.after) :
    motive past last stop := by
  suffices general : ∀ earlier first start, motive earlier first start →
      Passes law start past stop → Orderly first past last →
        motive (earlier ++ past) last stop from
    general [] first start initial passes orderly
  clear initial passes orderly
  induction past with
  | nil =>
      intro earlier first start holds passes orderly
      cases passes
      cases orderly
      simpa using holds
  | cons moment past induction =>
      intro earlier first start holds passes orderly
      obtain ⟨rfl, lawful, later⟩ := passes
      obtain ⟨next, turn, orderlyLater⟩ := orderly
      rw [List.append_cons]
      exact induction _ _ _ (step earlier moment first next lawful turn holds) later
        orderlyLater

namespace Recording

/-- The history is in order from the phase `first` on, and the phase at its end fits the
result. -/
def Ends (first : Phase P) (goal : α → Network P → Phase P → Prop)
    (recording : Recording P α) : Prop :=
  ∃ last, Orderly first recording.history last ∧
    ∀ value network, recording.result = some (value, network) → goal value network last

variable {first last : Phase P} {goal : α → Network P → Phase P → Prop}

theorem ends_still {value : α} {network : Network P} (reached : goal value network first) :
    (still value network).Ends first goal := by
  refine ⟨first, rfl, ?_⟩
  intro other after result
  cases result
  exact reached

theorem ends_single {before after : Network P} {happening : Happening P} {value : α}
    (turn : first.Turn happening last) (reached : goal value after last) :
    (single before happening value after).Ends first goal := by
  refine ⟨last, ⟨last, turn, rfl⟩, ?_⟩
  intro other stop result
  cases result
  exact reached

theorem ends_nothing : (⟨[], none⟩ : Recording P α).Ends first goal := by
  refine ⟨first, rfl, ?_⟩
  intro value network result
  cases result

theorem Ends.weaken {weaker : α → Network P → Phase P → Prop} {recording : Recording P α}
    (ends : recording.Ends first goal)
    (implies : ∀ value network phase, goal value network phase →
      weaker value network phase) : recording.Ends first weaker := by
  obtain ⟨last, orderly, reached⟩ := ends
  exact ⟨last, orderly, fun value network result =>
    implies value network last (reached value network result)⟩

theorem Ends.bind {later : β → Network P → Phase P → Prop} {recording : Recording P α}
    {next : α → Network P → Recording P β} (ends : recording.Ends first goal)
    (continues : ∀ value network phase, goal value network phase →
      (next value network).Ends phase later) : (recording.bind next).Ends first later := by
  obtain ⟨middle, orderly, reached⟩ := ends
  unfold Recording.bind
  cases result : recording.result with
  | none =>
      refine ⟨middle, orderly, ?_⟩
      intro value network impossible
      cases impossible
  | some ended =>
      obtain ⟨value, network⟩ := ended
      obtain ⟨last, orderlyLater, reachedLater⟩ :=
        continues value network middle (reached value network result)
      exact ⟨last, orderly.append orderlyLater, reachedLater⟩

end Recording

/-- Nothing is left open by a success, nor in a network that has not halted. -/
def Phase.Closed (outcome : Except Error Unit) (after : Network P) (last : Phase P) : Prop :=
  outcome = .ok () ∨ after.halted = false → last = .between

variable {behaviour : Behaviour P} {recorder : Recorder P}

theorem Op.record_ends {op : Op P} (quiet : op.isRun = false) (recorder : Recorder P)
    (phase : Phase P) (network : Network P) :
    (op.record recorder network).Ends phase fun _ after last =>
      last = phase ∧ after.halted = network.halted := by
  rw [record_of_quiet quiet]
  cases performed : op.perform idle network with
  | none => exact Recording.ends_nothing
  | some ended =>
      obtain ⟨_, effect⟩ := Network.effect_perform False quiet False.elim performed
      exact Recording.ends_single (.operated phase op) ⟨rfl, effect.halted⟩

theorem Program.record_ends {program : Program P α}
    (quiet : program.All fun op => op.isRun = false) (recorder : Recorder P)
    (phase : Phase P) (network : Network P) :
    (program.record recorder network).Ends phase fun _ _ last => last = phase := by
  induction program generalizing network with
  | pure value => exact Recording.ends_still rfl
  | call op next induction =>
      obtain ⟨opQuiet, nextQuiet⟩ := quiet
      refine (Op.record_ends opQuiet recorder phase network).bind ?_
      rintro answer after _ ⟨rfl, -⟩
      exact induction answer (nextQuiet answer) after

namespace Network

theorem recordRearm_ends (network : Network P) (record : ScheduledTask P) (next : Nat) :
    (network.recordRearm (.task record) (some next)).Ends (.returning record next)
      fun _ _ last => last = .between :=
  Recording.ends_single (.rearmed record next) rfl

theorem recordRearm_none (network : Network P) (event : Event P) :
    network.recordRearm event none = .still (.ok ()) network := by
  cases event <;> rfl

theorem recordBody_ends (calm : behaviour.Calm) (recorder : Recorder P) (phase : Phase P)
    (network : Network P) (event : Event P) {next : Option Nat}
    (rearms : ∀ after : Network P, (after.recordRearm event next).Ends phase
      fun _ _ last => last = .between) :
    (network.recordReaction behaviour recorder event (.acted next)).Ends phase
      fun outcome _ last => outcome = .ok () → last = .between := by
  refine (Program.record_ends (calm.body event) recorder phase network).bind ?_
  rintro outcome after _ rfl
  cases outcome with
  | error error => exact Recording.ends_still (fun succeeded => nomatch succeeded)
  | ok _ => exact (rearms after).weaken fun _ _ _ between _ => between

theorem recordReaction_ends (calm : behaviour.Calm) (recorder : Recorder P)
    (network : Network P) {key : EventKey} {event : Event P} {reaction : Reaction}
    {phase : Phase P} (turn : Phase.between.Turn (.took key event reaction) phase) :
    (network.recordReaction behaviour recorder event reaction).Ends phase
      fun outcome _ last => outcome = .ok () → last = .between := by
  cases turn with
  | refuses _ _ error => exact Recording.ends_still (fun succeeded => nomatch succeeded)
  | returns _ record comes =>
      cases reaction with
      | refused _ | dropped | retired => cases comes
      | skipped next =>
          cases comes
          exact (recordRearm_ends network record _).weaken fun _ _ _ between _ => between
      | acted next =>
          cases comes
          exact recordBody_ends calm recorder _ network _
            fun after => recordRearm_ends after record _
  | passes _ _ accepted leaves =>
      have still : ∀ after : Network P, (after.recordRearm event none).Ends .between
          fun _ _ last => last = .between := by
        intro after
        rw [recordRearm_none]
        exact Recording.ends_still rfl
      cases reaction with
      | refused error => exact absurd rfl (accepted error)
      | dropped | retired => exact Recording.ends_still fun _ => rfl
      | skipped next =>
          cases leaves
          exact (still network).weaken fun _ _ _ between _ => between
      | acted next =>
          cases leaves
          exact recordBody_ends calm recorder _ network event still

theorem exists_turn_took (network : Network P) (behaviour : Behaviour P) (key : EventKey)
    (event : Event P) : ∃ phase, Phase.between.Turn
      (.took key event (network.reaction behaviour key.time event)) phase := by
  cases comes : (network.reaction behaviour key.time event).next? with
  | some next =>
      cases event with
      | task record => exact ⟨_, .returns key record comes⟩
      | delivery sender receiver message =>
          simp only [reaction] at comes
          split at comes
          · cases comes
          · split at comes <;> cases comes
  | none =>
      cases reacts : network.reaction behaviour key.time event with
      | refused error => exact ⟨_, .refuses key event error⟩
      | dropped | retired | skipped _ | acted _ =>
          rw [reacts] at comes
          refine ⟨_, .passes key event ?_ comes⟩
          intro error same
          cases same

theorem recordExecute_ends (calm : behaviour.Calm) (recorder : Recorder P)
    (network : Network P) (queue : EventQueue (Event P)) (key : EventKey) (event : Event P) :
    (network.recordExecute behaviour recorder queue key event).Ends .between
      Phase.Closed := by
  obtain ⟨phase, turn⟩ :=
    (network.arrive queue key.time).exists_turn_took behaviour key event
  have took : ∀ counted : Network P, (Recording.single network (.took key event
      ((network.arrive queue key.time).reaction behaviour key.time event)) () counted).Ends
        .between fun _ _ last => last = phase :=
    fun counted => Recording.ends_single turn rfl
  refine (took _).bind ?_
  rintro _ counted _ rfl
  refine (recordReaction_ends calm recorder counted turn).bind ?_
  intro outcome after last reached
  cases outcome with
  | error source =>
      refine Recording.ends_single (.halted last) ?_
      rintro (succeeded | running)
      · cases succeeded
      · cases running
  | ok _ => exact Recording.ends_still fun _ => reached rfl

theorem recordStart_ends
    (ends : ∀ deadline network, (recorder deadline network).Ends .between Phase.Closed)
    (deadline : Nat) {network : Network P} {phase : Phase P}
    (between : network.halted = false → phase = .between) :
    (recordStart recorder deadline network).Ends phase Phase.Closed := by
  unfold recordStart
  cases started : network.start deadline with
  | error error =>
      refine Recording.ends_still ?_
      rintro (succeeded | running)
      · cases succeeded
      · exact between running
  | ok after =>
      obtain ⟨running, -, -⟩ := start_eq_ok started
      obtain rfl := between running
      have began : (Recording.single network (.began deadline) () after).Ends .between
          fun _ _ last => last = .between := Recording.ends_single (.began deadline) rfl
      refine began.bind ?_
      rintro _ middle _ rfl
      exact ends deadline middle

theorem recordDrain_ends (calm : behaviour.Calm) (fuel deadline : Nat)
    (network : Network P) :
    (recordDrain behaviour fuel deadline network).Ends .between Phase.Closed := by
  induction fuel generalizing network with
  | zero => exact Recording.ends_nothing
  | succ fuel induction =>
      unfold recordDrain
      cases network.queue.popDue deadline with
      | none => exact Recording.ends_single (.finished deadline) fun _ => rfl
      | some taken =>
          obtain ⟨⟨key, event⟩, queue⟩ := taken
          refine (recordExecute_ends calm _ network queue key event).bind ?_
          intro outcome after last closed
          cases outcome with
          | error error => exact Recording.ends_still closed
          | ok _ =>
              obtain rfl := closed (.inl rfl)
              exact induction after

theorem recordRun_ends (calm : behaviour.Calm) (fuel deadline : Nat) {network : Network P}
    {phase : Phase P} (between : network.halted = false → phase = .between) :
    (recordRun behaviour fuel deadline network).Ends phase Phase.Closed :=
  recordStart_ends (recordDrain_ends calm fuel) deadline between

end Network

theorem Program.life_ends (calm : behaviour.Calm) (life : Program P α) (fuel : Nat)
    {network : Network P} {phase : Phase P}
    (between : network.halted = false → phase = .between) :
    (life.record (Network.recordRun behaviour fuel) network).Ends phase
      fun _ after last => after.halted = false → last = .between := by
  induction life generalizing network phase with
  | pure value => exact Recording.ends_still between
  | call op next induction =>
      suffices ends : (op.record (Network.recordRun behaviour fuel) network).Ends phase
          fun _ after last => after.halted = false → last = .between from
        ends.bind fun answer after last closed => induction answer closed
      cases quiet : op.isRun with
      | false =>
          refine (Op.record_ends quiet _ phase network).weaken ?_
          rintro answer after _ ⟨rfl, same⟩ running
          exact between (same ▸ running)
      | true =>
          have run : ∀ deadline,
              (Network.recordRun behaviour fuel deadline network).Ends phase
                fun _ after last => after.halted = false → last = .between := by
            intro deadline
            refine (Network.recordRun_ends calm fuel deadline between).weaken ?_
            exact fun _ _ _ closed running => closed (.inr running)
          cases op with
          | runUntil deadline => exact run deadline
          | runFor milliseconds =>
              simp only [Op.record]
              split
              · exact Recording.ends_still between
              · exact run _
          | runSeconds seconds =>
              simp only [Op.record]
              split
              · exact Recording.ends_still between
              · exact run _
          | _ => cases quiet

end Phases

end Simnet
