import Simnet.Proofs.Change

namespace Simnet

/-! The life of a network, one indivisible change after the other. A recording goes
through a program exactly as its execution does and notes every change on the way,
those made by an aborted run and by a run that never ends included. Its result is
the result of the execution, so whatever is said of all recordings is said of all
executions, and of every network that one of them goes through. -/

/-- What becomes of an event that was taken off the queue: it fails before any body, finds its
receiver down, is a task that is not kept, is passed over, or has its body run. -/
inductive Reaction
  | refused (error : Error)
  | dropped
  | retired
  | skipped (next : Option Nat)
  | acted (next : Option Nat)
deriving DecidableEq

inductive Happening (P : Protocol)
  | operated (op : Op P)
  | began (deadline : Nat)
  | took (key : EventKey) (event : Event P) (reaction : Reaction)
  | rearmed (record : ScheduledTask P) (next : Nat)
  | halted
  | finished (deadline : Nat)

/-- A change of a network, with the networks before and after it. -/
structure Moment (P : Protocol) where
  before : Network P
  happening : Happening P
  after : Network P

/-- What happens in the course of an execution, and its result. An execution that
runs out of fuel has a history but no result. -/
structure Recording (P : Protocol) (α : Type) where
  history : List (Moment P)
  result : Option (α × Network P)

abbrev Recorder (P : Protocol) := (deadline : Nat) → Network P → Recording P (Except Error Unit)

namespace Recording

variable {P : Protocol} {α β : Type}

def still (value : α) (network : Network P) : Recording P α :=
  ⟨[], some (value, network)⟩

def single (before : Network P) (happening : Happening P) (value : α)
    (after : Network P) : Recording P α :=
  ⟨[⟨before, happening, after⟩], some (value, after)⟩

def bind (first : Recording P α) (next : α → Network P → Recording P β) :
    Recording P β :=
  match first.result with
  | none => ⟨first.history, none⟩
  | some (value, network) =>
      ⟨first.history ++ (next value network).history, (next value network).result⟩

@[simp] theorem result_single (before : Network P) (happening : Happening P)
    (value : α) (after : Network P) :
    (single before happening value after).result = some (value, after) := rfl

@[simp] theorem history_single (before : Network P) (happening : Happening P)
    (value : α) (after : Network P) :
    (single before happening value after).history = [⟨before, happening, after⟩] := rfl

theorem result_bind (first : Recording P α)
    (next : α → Network P → Recording P β) :
    (first.bind next).result =
      match first.result with
      | none => none
      | some (value, network) => (next value network).result := by
  unfold bind
  cases first.result with
  | none => rfl
  | some ended => rfl

theorem history_bind {first : Recording P α} {value : α} {network : Network P}
    (result : first.result = some (value, network))
    (next : α → Network P → Recording P β) :
    (first.bind next).history = first.history ++ (next value network).history := by
  unfold bind
  rw [result]

end Recording

namespace Op

variable {P : Protocol}

def record (recorder : Recorder P) (network : Network P) :
    (op : Op P) → Recording P op.Answer
  | runUntil deadline => recorder deadline network
  | runFor milliseconds =>
      match network.deadlineAfter milliseconds with
      | .error error => .still (.error error) network
      | .ok deadline => recorder deadline network
  | runSeconds seconds =>
      match network.deadlineAfterSeconds seconds with
      | .error error => .still (.error error) network
      | .ok deadline => recorder deadline network
  | op =>
      match op.perform idle network with
      | none => ⟨[], none⟩
      | some (answer, after) => .single network (.operated op) answer after

end Op

namespace Program

variable {P : Protocol} {α : Type}

def record (recorder : Recorder P) : Program P α → Network P → Recording P α
  | pure value, network => .still value network
  | call op next, network =>
      (op.record recorder network).bind fun answer network =>
        (next answer).record recorder network

end Program

namespace Event

variable {P : Protocol}

def body (behaviour : Behaviour P) : Event P → Body P Unit
  | delivery sender receiver message => behaviour.deliver message sender receiver
  | task record => behaviour.fire record.task record.owner

end Event

namespace Network

variable {P : Protocol}

/-- How a network reacts to an event, decided before anything changes. -/
def reaction (behaviour : Behaviour P) (network : Network P) (time : Nat) :
    Event P → Reaction
  | .delivery _ receiver _ =>
      match network.node? receiver with
      | none => .refused (.unknownNode receiver)
      | some node => if node.info.down then .dropped else .acted none
  | .task record =>
      match network.node? record.owner with
      | none => .refused (.unknownNode record.owner)
      | some node =>
          if record.kind.isConditional &&
              ! behaviour.keepRunning record.task network record.owner then
            .retired
          else
            match nextInstant record.kind time with
            | .error error => .refused error
            | .ok next =>
                if ! node.info.down && (! record.kind.isConditional ||
                    behaviour.stillEnabled record.task network record.owner) then
                  .acted next
                else
                  .skipped next

def countEvent (network : Network P) : Event P → Reaction → Network P
  | .delivery _ receiver message, .acted _ =>
      { network with
        nodes := network.nodes.modify receiver fun node =>
          { node with info := node.info.countReceived (P.size message) }
        counters := { network.counters with
          messagesDelivered := network.counters.messagesDelivered + 1 } }
  | .task _, .acted _ =>
      { network with
        counters := { network.counters with tasksFired := network.counters.tasksFired + 1 } }
  | .delivery _ _ _, .dropped =>
      { network with
        counters := { network.counters with
          droppedAtDelivery := network.counters.droppedAtDelivery + 1 } }
  | .task _, .skipped _ =>
      { network with
        counters := { network.counters with
          tasksSkipped := network.counters.tasksSkipped + 1 } }
  | _, _ => network

def arrive (network : Network P) (queue : EventQueue (Event P)) (time : Nat) :
    Network P :=
  { network with queue := queue, time := time }

def recordRearm (network : Network P) :
    Event P → Option Nat → Recording P (Except Error Unit)
  | .task record, some next =>
      .single network (.rearmed record next) (.ok ()) (network.pushTask next record)
  | _, _ => .still (.ok ()) network

def recordReaction (behaviour : Behaviour P) (recorder : Recorder P)
    (network : Network P) (event : Event P) :
    Reaction → Recording P (Except Error Unit)
  | .refused error => .still (.error error) network
  | .dropped | .retired => .still (.ok ()) network
  | .skipped next => network.recordRearm event next
  | .acted next =>
      ((event.body behaviour).run.record recorder network).bind fun outcome network =>
        match outcome with
        | .error error => .still (.error error) network
        | .ok () => network.recordRearm event next

def recordOutcome (network : Network P) (key : EventKey) (event : Event P) :
    Except Error Unit → Recording P (Except Error Unit)
  | .ok () => .still (.ok ()) network
  | .error source =>
      .single network .halted (.error (.aborted key.time event.node key.sequence source))
        { network with halted := true }

/-- What happens when an event that is due is taken off the queue; `queue` holds the
rest. -/
def recordExecute (behaviour : Behaviour P) (recorder : Recorder P)
    (network : Network P) (queue : EventQueue (Event P)) (key : EventKey)
    (event : Event P) : Recording P (Except Error Unit) :=
  let arrived := network.arrive queue key.time
  let reaction := arrived.reaction behaviour key.time event
  (Recording.single network (.took key event reaction) ()
    (arrived.countEvent event reaction)).bind fun _ counted =>
      (counted.recordReaction behaviour recorder event reaction).bind
        fun outcome network => network.recordOutcome key event outcome

def recordStart (recorder : Recorder P) : Recorder P := fun deadline network =>
  match network.start deadline with
  | .error error => .still (.error error) network
  | .ok started =>
      (Recording.single network (.began deadline) () started).bind fun _ started =>
        recorder deadline started

def recordDrain (behaviour : Behaviour P) : (fuel : Nat) → Recorder P
  | 0, _, _ => ⟨[], none⟩
  | fuel + 1, deadline, network =>
      match network.queue.popDue deadline with
      | none =>
          .single network (.finished deadline) (.ok ()) { network with time := deadline }
      | some ((key, event), queue) =>
          (network.recordExecute behaviour
            (recordStart (recordDrain behaviour fuel)) queue key event).bind
              fun outcome network =>
                match outcome with
                | .error error => .still (.error error) network
                | .ok () => recordDrain behaviour fuel deadline network

def recordRun (behaviour : Behaviour P) (fuel : Nat) : Recorder P :=
  recordStart (recordDrain behaviour fuel)

end Network

/-! A recording ends as the execution does. -/

def Recorder.Records {P : Protocol} (recorder : Recorder P) (run : Runner P) : Prop :=
  ∀ deadline network, (recorder deadline network).result = run deadline network

namespace Op

variable {P : Protocol}

theorem record_of_quiet {op : Op P} (quiet : op.isRun = false)
    (recorder : Recorder P) (network : Network P) :
    op.record recorder network =
      match op.perform idle network with
      | none => ⟨[], none⟩
      | some (answer, after) => .single network (.operated op) answer after := by
  cases op with
  | runUntil _ | runFor _ | runSeconds _ => cases quiet
  | _ => rfl

theorem result_record {recorder : Recorder P} {run : Runner P}
    (records : recorder.Records run) (op : Op P) (network : Network P) :
    (op.record recorder network).result = op.perform run network := by
  cases quiet : op.isRun with
  | false =>
      rw [record_of_quiet quiet, perform_idle quiet run]
      cases op.perform idle network with
      | none => rfl
      | some ended => rfl
  | true =>
      cases op with
      | runUntil deadline => exact records deadline network
      | runFor milliseconds =>
          simp only [record, perform, Network.runTo]
          cases network.deadlineAfter milliseconds with
          | error error => rfl
          | ok deadline => exact records deadline network
      | runSeconds seconds =>
          simp only [record, perform, Network.runTo]
          cases network.deadlineAfterSeconds seconds with
          | error error => rfl
          | ok deadline => exact records deadline network
      | _ => cases quiet

end Op

namespace Program

variable {P : Protocol} {α : Type}

theorem result_record {recorder : Recorder P} {run : Runner P}
    (records : recorder.Records run) (program : Program P α) (network : Network P) :
    (program.record recorder network).result = program.exec run network := by
  induction program generalizing network with
  | pure value => rfl
  | call op next induction =>
      rw [record, Recording.result_bind, Op.result_record records, exec]
      cases op.perform run network with
      | none => rfl
      | some ended => exact induction ended.1 ended.2

end Program

namespace Network

variable {P : Protocol} (behaviour : Behaviour P)

@[simp] theorem result_recordRearm (network : Network P) (record : ScheduledTask P)
    (next : Option Nat) :
    (network.recordRearm (.task record) next).result =
      some (.ok (), network.rearm record next) := by
  cases next with
  | none => rfl
  | some next => rfl

theorem result_recordReaction {recorder : Recorder P} {run : Runner P}
    (records : recorder.Records run) (network : Network P) (time : Nat)
    (event : Event P) :
    ((network.countEvent event (network.reaction behaviour time event)).recordReaction
        behaviour recorder event (network.reaction behaviour time event)).result =
      network.dispatch behaviour run time event := by
  cases event with
  | delivery sender receiver message =>
      simp only [dispatch, deliver, reaction]
      cases network.node? receiver with
      | none => rfl
      | some node =>
          by_cases down : node.info.down = true
          · simp only [down, if_true]
            rfl
          · simp only [down, Bool.false_eq_true, if_false, recordReaction, countEvent,
              Recording.result_bind, Program.result_record records, Event.body]
            split <;> rename_i equation
            · exact equation.symm
            · rename_i outcome after
              rw [equation]
              cases outcome <;> rfl
  | task record =>
      simp only [dispatch, fireTask, reaction]
      cases network.node? record.owner with
      | none => rfl
      | some node =>
          dsimp only
          split
          · rfl
          · cases nextInstant record.kind time with
            | error error => rfl
            | ok next =>
                dsimp only
                split
                · simp only [recordReaction, countEvent, Recording.result_bind,
                    Program.result_record records, Event.body]
                  cases Program.exec run (behaviour.fire record.task record.owner).run _ with
                  | none => rfl
                  | some ended =>
                      obtain ⟨outcome, after⟩ := ended
                      cases outcome with
                      | error error => rfl
                      | ok _ => exact result_recordRearm after record next
                · exact result_recordRearm _ record next

theorem result_recordExecute {recorder : Recorder P} {run : Runner P}
    (records : recorder.Records run) (network : Network P)
    (queue : EventQueue (Event P)) (key : EventKey) (event : Event P) :
    (network.recordExecute behaviour recorder queue key event).result =
      { network with queue := queue }.execute behaviour run key event := by
  simp only [recordExecute, Recording.result_bind, Recording.result_single,
    result_recordReaction behaviour records, execute, arrive]
  cases dispatch behaviour run _ key.time event with
  | none => rfl
  | some ended =>
      obtain ⟨outcome, after⟩ := ended
      cases outcome <;> rfl

theorem records_start {recorder : Recorder P} {run : Runner P}
    (records : recorder.Records run) :
    Recorder.Records (recordStart recorder) (startThen run) := by
  intro deadline network
  unfold recordStart startThen
  cases network.start deadline with
  | error error => rfl
  | ok started => exact records deadline started

theorem records_drain (fuel : Nat) :
    Recorder.Records (recordDrain behaviour fuel) (drain behaviour fuel) := by
  induction fuel with
  | zero => intro deadline network; rfl
  | succ fuel induction =>
      intro deadline network
      unfold recordDrain drain
      cases network.queue.popDue deadline with
      | none => rfl
      | some popped =>
          obtain ⟨⟨key, event⟩, queue⟩ := popped
          dsimp only
          rw [Recording.result_bind,
            result_recordExecute behaviour (records_start induction)]
          cases execute behaviour (startThen (drain behaviour fuel)) _ key event with
          | none => rfl
          | some ended =>
              obtain ⟨outcome, after⟩ := ended
              cases outcome with
              | error error => rfl
              | ok _ => exact induction deadline after

theorem records_runUntil (fuel : Nat) :
    Recorder.Records (recordRun behaviour fuel) (runUntil behaviour fuel) :=
  records_start (records_drain behaviour fuel)

end Network

/-! A small protocol to try statements on: a message goes back to its sender as often as
its number says. -/

abbrev relay : Protocol where
  State := Unit
  Message := Nat
  Task := Unit
  Payload := Unit
  digest _ _ := 0
  size hops := hops + 1
  retry _ := ()
  forkChoice := BlockTree.longest

namespace relay

def behaviour : Behaviour relay where
  deliver hops sender receiver :=
    match hops with
    | 0 => ExceptT.mk (.pure (.ok ()))
    | hops + 1 => do
        let network ← Body.read
        ExceptT.mk (.perform (.sendToMany hops network.time receiver [sender]))
  fire _ _ := ExceptT.mk (.pure (.ok ()))

def initial : Network relay :=
  .new {} (LatencyModel.fixed 2).latency ()

/-- Two nodes, and a message that goes back and forth between them. -/
def exchange (hops deadline : Nat) : Program relay (Except Error Unit) := do
  let _ ← Program.perform (.addNode (.new ⟨0, 0, none⟩ false) ())
  let _ ← Program.perform (.addNode (.new ⟨3, 4, none⟩ false) ())
  let _ ← Program.perform (.sendToMany hops 0 0 [1])
  Program.perform (.runUntil deadline)

end relay

end Simnet
