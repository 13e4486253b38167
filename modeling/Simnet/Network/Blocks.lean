import Simnet.Network.Tasks

namespace Simnet

/-! Block operations of a network. -/

namespace Network

variable {P : Protocol}

def createBlock (network : Network P) (proposal : BlockProposal P.Payload) :
    Outcome P Nat :=
  match network.node? proposal.producer with
  | none => (.error (.unknownNode proposal.producer), network)
  | some _ =>
      match network.tree.insert proposal with
      | .error error => (.error error, network)
      | .ok (id, tree) => (.ok id, { network with tree := tree })

def head (network : Network P) (node : Nat) : Except Error (Block P.Payload) :=
  match network.tree.head node with
  | .error error => .error error
  | .ok head => network.tree.block head

/-- The accepted blocks of the whole network, shown to byzantine nodes only. -/
def byzantineView (network : Network P) (node : Nat) :
    Except Error (Option (BlockTree P.Payload)) :=
  match network.node node with
  | .error error => .error error
  | .ok node => .ok (if node.info.byzantine then some network.tree else none)

def deferBlock (network : Network P) (node : Nat) (block : Block P.Payload) :
    Outcome P Bool :=
  match network.registerTask (P.retry ⟨block.id⟩) block.proposalTime node with
  | (.error error, network) => (.error error, network)
  | (.ok _, network) => (.ok false, network)

def receiveBlock (network : Network P) (node block : Nat) : Network P :=
  let tree := network.tree.receive node block
  let head := (tree.heads[node]?).getD genesisId
  { network with tree := tree.setHead node (P.forkChoice tree head block) }

/-- Receives a block whose time has come, unless its producer has an accepted
block at the same height. -/
def acceptBlock (network : Network P) (node : Nat) (block : Block P.Payload) :
    Outcome P Bool :=
  match network.tree.conflicting block with
  | some (producer, existing) =>
      if network.config.allowEquivocation then
        (.ok false, network)
      else
        (.error (.equivocation producer block.height existing block.id), network)
  | none => (.ok true, network.receiveBlock node block.id)

/-- Offers a block to a node; true when the node accepts it. Invalid blocks and
blocks that the node has are refused, and early blocks are treated as configured. -/
def offerBlock (network : Network P) (node id : Nat) : Outcome P Bool :=
  match network.node? node with
  | none => (.error (.unknownNode node), network)
  | some _ =>
      match network.tree.block id with
      | .error error => (.error error, network)
      | .ok block =>
          if ! block.valid || network.tree.hasReceived node id then
            (.ok false, network)
          else if network.time < block.proposalTime then
            match network.config.earlyBlockPolicy with
            | .accept => network.acceptBlock node block
            | .reject => (.ok false, network)
            | .defer => network.deferBlock node block
          else
            network.acceptBlock node block

end Network

end Simnet
