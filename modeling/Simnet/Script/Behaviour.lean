import Simnet.Network.Run
import Simnet.Script.Basic

namespace Simnet.Script

/-! What the actions of a script do. Actions are performed in order, and the first
error ends the body they stand in. -/

structure Context where
  /-- The message that is handled; absent in a task. -/
  message : Option Message
  sender : Nat
  self : Nat

abbrev ScriptBody (rule : ForkRule) (α : Type) := Body (scripted rule) α

variable {rule : ForkRule}

namespace ScriptBody

def after (delay : Nat) : ScriptBody rule Nat := do
  return cappedAdd (← Body.read).time delay

def writeLog (node : Nat) (text : String) : ScriptBody rule Unit := do
  let network ← Body.read
  let found ← Body.ofResult (network.node node)
  ExceptT.mk (.perform (.setState node (found.state ++ [(network.time, text)])))

def resolve (context : Context) : Target → ScriptBody rule Nat
  | .node id => return id
  | .self => return context.self
  | .sender => return context.sender
  | .random => do
      let network ← Body.read
      Body.draw (Rng.below .single network.nodeCount)

def resolveAll (context : Context) : List Target → ScriptBody rule (List Nat)
  | [] => return []
  | target :: rest => do
      let id ← resolve context target
      let ids ← resolveAll context rest
      return id :: ids

def send (message : Message) (departure sender : Nat) (receivers : List Nat) :
    ScriptBody rule Unit :=
  ExceptT.mk (.perform (.sendToMany message departure sender receivers))

def announcement (block : Nat) : Message :=
  { body := [.offerBlock block] }

def offerAndLog (node block : Nat) : ScriptBody rule Unit := do
  let accepted ← ExceptT.mk (.perform (.offerBlock node block))
  writeLog node ((if accepted then "ok:" else "no:") ++ toString block)

def produce (node increment payload : Nat) (valid : Bool) (delay : Nat) :
    ScriptBody rule Unit := do
  let network ← Body.read
  let proposalTime ← after delay
  let head ← Body.ofResult (network.head node)
  let block ← ExceptT.mk (.perform (.createBlock {
    producer := node
    parent := head.id
    height := head.height + increment
    proposalTime := proposalTime
    valid := valid
    payload := payload }))
  let _ ← ExceptT.mk (.perform (.offerBlock node block))
  ExceptT.mk (.perform (.sendAll (announcement block) (← Body.read).time node))

/-- Passes the handled message to the flood; a node that sees it for the first
time is done. -/
def receiveFlood (context : Context) : ScriptBody rule Unit := do
  match context.message with
  | none => return
  | some message =>
      match message.flood with
      | none => return
      | some header =>
          let first ← ExceptT.mk
            (.perform (.receiveFlood message header context.sender context.self))
          if first then
            ExceptT.mk (.perform (.markDone context.self))
            writeLog context.self "first"
          else
            writeLog context.self "dup"

end ScriptBody

open ScriptBody

mutual

def Action.perform (context : Context) : Action → ScriptBody rule Unit
  | .log text => writeLog context.self text
  | .send target message delay => do
      let departure ← after delay
      let receiver ← resolve context target
      ScriptBody.send message departure context.self [receiver]
  | .sendToMany targets message delay => do
      let departure ← after delay
      let receivers ← resolveAll context targets
      ScriptBody.send message departure context.self receivers
  | .sendAll message delay => do
      let departure ← after delay
      ExceptT.mk (.perform (.sendAll message departure context.self))
  | .forward target delay => do
      let departure ← after delay
      match context.message with
      | none => return
      | some message =>
          if message.ttl = 0 then
            return
          else
            let receiver ← resolve context target
            ScriptBody.send { message with ttl := message.ttl - 1 } departure context.self
              [receiver]
  | .sendInPast => do
      ScriptBody.send {} ((← Body.read).time - 1) context.self [context.self]
  | .done => ExceptT.mk (.perform (.markDone context.self))
  | .setDown target down => do
      let node ← resolve context target
      ExceptT.mk (.perform (.setDown node down))
  | .need node => do
      let _ ← Body.ofResult ((← Body.read).node node)
  | .schedule task kind delay => do
      let start ← after delay
      let _ ← ExceptT.mk (.perform (.schedule task start context.self kind))
  | .partition groups => ExceptT.mk (.perform (.partition groups))
  | .heal => ExceptT.lift (.perform .endPartition)
  | .runFor milliseconds => ExceptT.mk (.perform (.runFor milliseconds))
  | .addNode placement byzantine => do
      let info ← ExceptT.lift (.perform (.createNode placement.placement byzantine))
      let _ ← ExceptT.mk (.perform (.addNode info []))
  | .attempt body => tryCatch (Action.performAll context body) fun error =>
      writeLog context.self ("err:" ++ error.rootCause.kind)
  | .receiveFlood => ScriptBody.receiveFlood context
  | .startFlood message =>
      match message.flood with
      | none => return
      | some header => ExceptT.mk (.perform (.flood message header context.self))
  | .link node => do
      let _ ← ExceptT.mk (.perform (.createLink context.self node))
  | .unlink node => do
      let _ ← ExceptT.mk (.perform (.removeLink context.self node))
  | .disconnect node => ExceptT.mk (.perform (.disconnect node))
  | .offerBlock block => offerAndLog context.self block
  | .produce increment payload valid delay =>
      ScriptBody.produce context.self increment payload valid delay

def Action.performAll (context : Context) : List Action → ScriptBody rule Unit
  | [] => return
  | action :: rest => do
      action.perform context
      Action.performAll context rest

end

namespace Chore

def isEnabled (task : Task) (now : Nat) : Bool :=
  task.enabledFrom ≤ now && now < task.enabledUntil

def isKept (task : Task) (now : Nat) (owner : Node (scripted rule)) : Bool :=
  now ≤ task.stopAfter && owner.state.length < task.maxLog &&
    ! (task.untilDone && owner.info.isDone)

end Chore

end Simnet.Script

namespace Simnet

open Script

variable {rule : ForkRule}

def scriptedBehaviour : Behaviour (scripted rule) where
  deliver := fun message sender receiver =>
    Action.performAll ⟨some message, sender, receiver⟩ message.body
  fire := fun task owner => Action.performAll ⟨none, owner, owner⟩ task.body
  stillEnabled := fun task network _ => task.isEnabled network.time
  keepRunning := fun task network owner =>
    match network.node? owner with
    | none => false
    | some node => task.isKept network.time node

end Simnet
