import Simnet.Proofs.Passage

namespace Simnet

/-! Operations that fail. Such an operation checks all that it is given before it
changes anything, so one that fails leaves the network as it was; only floods mark their
node between two checks. A run fails either at its start, or in an event, and then its
error names the event. -/

def failureOf {α : Type} : Except Error α → Option Error
  | .ok _ => none
  | .error error => some error

namespace Error

def isAborted : Error → Bool
  | aborted _ _ _ _ => true
  | _ => false

end Error

namespace Op

variable {P : Protocol}

def isFlood : Op P → Bool
  | flood _ _ _ | receiveFlood _ _ _ _ => true
  | _ => false

def failure? : (op : Op P) → op.Answer → Option Error
  | read, _ | setRng _, _ | createNode _ _, _ | endPartition, _ => none
  | addNode _ _, answer | setState _ _, answer | setLocation _ _, answer
  | setInfo _ _, answer | setDown _ _, answer | markDone _, answer
  | sendToMany _ _ _ _, answer | sendAll _ _ _, answer | schedule _ _ _ _, answer
  | partition _, answer | partitionByPosition _, answer | setPeers _, answer
  | createLink _ _, answer | removeLink _ _, answer | disconnect _, answer
  | flood _ _ _, answer | receiveFlood _ _ _ _, answer | createBlock _, answer
  | offerBlock _ _, answer | runUntil _, answer | runFor _, answer
  | runSeconds _, answer => failureOf answer

end Op

section Atomicity

variable {P : Protocol} {α : Type}

namespace Network

/-- Unless it succeeds, the call leaves the network as it was. -/
structure Spares (network : Network P) (call : Outcome P α) : Prop where
  unchanged : ∀ error, failureOf call.1 = some error → call.2 = network

theorem Spares.untouched (network : Network P) (result : Except Error α) :
    network.Spares (result, network) where
  unchanged _ _ := rfl

theorem Spares.succeeded (network : Network P) (value : α) (after : Network P) :
    network.Spares (.ok value, after) where
  unchanged := by
    intro error failed
    cases failed

variable (network : Network P)

theorem spares_updateNode (id : Nat) (change : Node P → Node P) :
    network.Spares (network.updateNode id change) := by
  unfold updateNode
  split
  · exact .untouched ..
  · exact .succeeded ..

theorem spares_addNode (info : NodeInfo) (state : P.State) :
    network.Spares (network.addNode info state) := by
  unfold addNode
  dsimp only
  split
  · exact .untouched ..
  · split
    · exact .untouched ..
    · split
      · exact .untouched ..
      · exact .succeeded ..

/-- The fates are drawn with a copy of the generator, and only when all receivers have
one is the first of them committed. -/
theorem spares_sendToMany (message : P.Message) (origin sender : Nat)
    (receivers : List Nat) :
    network.Spares (network.sendToMany message origin sender receivers) := by
  unfold sendToMany
  split
  · exact .untouched ..
  · split
    · exact .untouched ..
    · exact .succeeded ..

theorem spares_schedule (task : P.Task) (start owner : Nat) (kind : Recurrence) :
    network.Spares (network.schedule task start owner kind) := by
  unfold schedule
  split
  · exact .untouched ..
  · split
    · exact .untouched ..
    · split
      · exact .untouched ..
      · exact .succeeded ..

theorem spares_installPartition (groups : List (List Nat)) :
    network.Spares (network.installPartition groups) := by
  unfold installPartition
  split
  · exact .untouched ..
  · exact .succeeded ..

theorem spares_partitionByPosition (fraction : Float) :
    network.Spares (network.partitionByPosition fraction) := by
  unfold partitionByPosition
  split
  · exact network.spares_installPartition _
  · exact .untouched ..

theorem spares_setPeers (config : OverlayConfig) :
    network.Spares (network.setPeers config) := by
  unfold setPeers
  split
  · exact .untouched ..
  · exact .succeeded ..

theorem spares_createLink (first second : Nat) :
    network.Spares (network.createLink first second) := by
  unfold createLink
  split
  · exact .untouched ..
  · exact .succeeded ..

theorem spares_removeLink (first second : Nat) :
    network.Spares (network.removeLink first second) := by
  unfold removeLink
  split
  · exact .untouched ..
  · exact .succeeded ..

theorem spares_createBlock (proposal : BlockProposal P.Payload) :
    network.Spares (network.createBlock proposal) := by
  unfold createBlock
  split
  · exact .untouched ..
  · split
    · exact .untouched ..
    · exact .succeeded ..

theorem spares_deferBlock (node : Nat) (block : Block P.Payload) :
    network.Spares (network.deferBlock node block) := by
  have spares := network.spares_schedule (P.retry ⟨block.id⟩) block.proposalTime node
    .oneShot
  unfold deferBlock
  split
  · rename_i error after registered
    rw [registerTask] at registered
    rw [registered] at spares
    exact ⟨fun _ _ => spares.unchanged error rfl⟩
  · exact .succeeded ..

theorem spares_acceptBlock (node : Nat) (block : Block P.Payload) :
    network.Spares (network.acceptBlock node block) := by
  unfold acceptBlock
  split
  · split
    · exact .untouched ..
    · exact .untouched ..
  · exact .succeeded ..

theorem spares_offerBlock (node id : Nat) :
    network.Spares (network.offerBlock node id) := by
  unfold offerBlock
  split
  · exact .untouched ..
  · split
    · exact .untouched ..
    · rename_i block _
      split
      · exact .untouched ..
      · split
        · split
          · exact network.spares_acceptBlock node block
          · exact .untouched ..
          · exact network.spares_deferBlock node block
        · exact network.spares_acceptBlock node block

variable {behaviour : Behaviour P} {network}

theorem isAborted_of_execute {run : Runner P} {key : EventKey} {event : Event P}
    {after : Network P} {error : Error}
    (executed : network.execute behaviour run key event = some (.error error, after)) :
    error.isAborted = true := by
  unfold execute at executed
  split at executed
  · cases executed
  · cases executed
  · cases executed
    rfl

theorem isAborted_of_drain {fuel deadline : Nat} {after : Network P} {error : Error}
    (drained : drain behaviour fuel deadline network = some (.error error, after)) :
    error.isAborted = true := by
  induction fuel generalizing network with
  | zero => cases drained
  | succ fuel induction =>
      unfold drain at drained
      split at drained
      · cases drained
      · split at drained
        · cases drained
        · rename_i executed
          cases drained
          exact isAborted_of_execute executed
        · exact induction drained

theorem runUntil_unchanged {fuel deadline : Nat} {after : Network P} {error : Error}
    (ran : runUntil behaviour fuel deadline network = some (.error error, after))
    (early : error.isAborted = false) : after = network := by
  unfold runUntil startThen at ran
  split at ran
  · cases ran
    rfl
  · rw [isAborted_of_drain ran] at early
    cases early

theorem runTo_unchanged {fuel : Nat} {deadline : Except Error Nat} {after : Network P}
    {error : Error}
    (ran : network.runTo (runUntil behaviour fuel) deadline = some (.error error, after))
    (early : error.isAborted = false) : after = network := by
  unfold runTo at ran
  split at ran
  · cases ran
    rfl
  · exact runUntil_unchanged ran early

theorem Spares.of_some {call : Outcome P α} (spares : network.Spares call)
    {answer : Except Error α} {after : Network P} {error : Error}
    (performed : some call = some (answer, after))
    (failed : failureOf answer = some error) : after = network := by
  cases performed
  exact spares.unchanged error failed

end Network

theorem failureOf_eq_some {answer : Except Error α} {error : Error}
    (failed : failureOf answer = some error) : answer = .error error := by
  cases answer with
  | ok value => cases failed
  | error other =>
      cases failed
      rfl

/-- An operation other than a flood that fails leaves all of the network as it was, and so does a
run unless its error names an event. -/
theorem Op.failed_unchanged {behaviour : Behaviour P} {fuel : Nat}
    {network after : Network P} {op : Op P} {answer : op.Answer} {error : Error}
    (whole : op.isFlood = false)
    (performed : op.perform (Network.runUntil behaviour fuel) network = some (answer, after))
    (failed : op.failure? answer = some error)
    (early : op.isRun = true → error.isAborted = false) : after = network := by
  cases op with
  | flood _ _ _ | receiveFlood _ _ _ _ => cases whole
  | read | setRng _ | createNode _ _ | endPartition => cases failed
  | addNode info state => exact (network.spares_addNode info state).of_some performed failed
  | setState node _ | setLocation node _ | setInfo node _ | setDown node _ | markDone node
  | disconnect node => exact (network.spares_updateNode node _).of_some performed failed
  | sendToMany message origin sender receivers =>
      exact (network.spares_sendToMany message origin sender receivers).of_some performed
        failed
  | sendAll message origin sender =>
      exact (network.spares_sendToMany message origin sender _).of_some performed failed
  | schedule task start owner kind =>
      exact (network.spares_schedule task start owner kind).of_some performed failed
  | partition groups =>
      exact (network.spares_installPartition groups).of_some performed failed
  | partitionByPosition fraction =>
      exact (network.spares_partitionByPosition fraction).of_some performed failed
  | setPeers config => exact (network.spares_setPeers config).of_some performed failed
  | createLink first second =>
      exact (network.spares_createLink first second).of_some performed failed
  | removeLink first second =>
      exact (network.spares_removeLink first second).of_some performed failed
  | createBlock proposal =>
      exact (network.spares_createBlock proposal).of_some performed failed
  | offerBlock node id => exact (network.spares_offerBlock node id).of_some performed failed
  | runUntil deadline =>
      rw [failureOf_eq_some failed] at performed
      exact Network.runUntil_unchanged performed (early rfl)
  | runFor milliseconds | runSeconds seconds =>
      rw [failureOf_eq_some failed] at performed
      exact Network.runTo_unchanged performed (early rfl)

theorem relay_failed_unchanged :
    ∃ after, (relay.opened 1).sendToMany 0 (maxTime - 1) 0 [0, 1] =
        (.error (.invalidParameter (.timeOverflow (maxTime - 1) 2)), after) ∧
      after = relay.opened 1 := by
  let op : Op relay := .sendToMany 0 (maxTime - 1) 0 [0, 1]
  have performed : op.perform (Network.runUntil relay.behaviour 0) (relay.opened 1) =
      some (.error (.invalidParameter (.timeOverflow (maxTime - 1) 2)),
        ((relay.opened 1).sendToMany 0 (maxTime - 1) 0 [0, 1]).2) := rfl
  refine ⟨_, rfl, ?_⟩
  exact Op.failed_unchanged rfl performed rfl (fun runs => nomatch runs)

end Atomicity

end Simnet
