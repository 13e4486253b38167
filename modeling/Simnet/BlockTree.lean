import Simnet.Error

namespace Simnet

/-! Blocks and the views that nodes have of them. A block names its parent, so
the blocks form a tree that only grows. Every node has a head and the set of
blocks that it has received; the blocks received by anyone are also kept in the
order of their first acceptance. -/

structure Block (β : Type) where
  id : Nat
  /-- Absent for the genesis block only. -/
  producer : Option Nat
  height : Nat
  parent : Option Nat
  valid : Bool
  /-- The earliest time at which honest nodes accept the block. -/
  proposalTime : Nat
  payload : β
deriving DecidableEq, Repr

namespace Block

variable {β : Type}

def isGenesis (block : Block β) : Bool :=
  block.parent.isNone

end Block

def genesisId : Nat := 0

structure BlockProposal (β : Type) where
  producer : Nat
  parent : Nat
  height : Nat
  proposalTime : Nat := 0
  valid : Bool := true
  payload : β
deriving DecidableEq, Repr

structure BlockRetry where
  block : Nat
deriving DecidableEq, Repr

structure BlockTree (β : Type) where
  blocks : List (Block β)
  /-- For each block, the blocks that name it as their parent. -/
  childLists : List (List Nat)
  /-- The blocks received by at least one node, in order of first acceptance. -/
  accepted : List Nat
  heads : List Nat
  received : List (List Nat)
deriving DecidableEq, Repr

namespace BlockTree

variable {β : Type}

def new (payload : β) : BlockTree β where
  blocks := [{
    id := genesisId, producer := none, height := 0, parent := none, valid := true,
    proposalTime := 0, payload := payload }]
  childLists := [[]]
  accepted := [genesisId]
  heads := []
  received := []

def addNode (tree : BlockTree β) : BlockTree β :=
  { tree with
    heads := tree.heads ++ [genesisId]
    received := tree.received ++ [[genesisId]] }

def genesis? (tree : BlockTree β) : Option (Block β) :=
  tree.blocks[genesisId]?

def block? (tree : BlockTree β) (id : Nat) : Option (Block β) :=
  tree.blocks[id]?

def block (tree : BlockTree β) (id : Nat) : Except Error (Block β) :=
  match tree.block? id with
  | some block => .ok block
  | none => .error (.unknownBlock id)

def length (tree : BlockTree β) : Nat :=
  tree.blocks.length

def isEmpty (tree : BlockTree β) : Bool :=
  tree.blocks.isEmpty

def children (tree : BlockTree β) (id : Nat) : Except Error (List Nat) :=
  match tree.childLists[id]? with
  | some children => .ok children
  | none => .error (.unknownBlock id)

def acceptedBlocks (tree : BlockTree β) : List (Block β) :=
  tree.accepted.filterMap tree.block?

def blocksAtHeight (tree : BlockTree β) (height : Nat) : List (Block β) :=
  tree.acceptedBlocks.filter (·.height = height)

def maxHeight (tree : BlockTree β) : Nat :=
  (tree.acceptedBlocks.map (·.height)).foldl max 0

def head (tree : BlockTree β) (node : Nat) : Except Error Nat :=
  match tree.heads[node]? with
  | some head => .ok head
  | none => .error (.unknownNode node)

def hasReceived (tree : BlockTree β) (node block : Nat) : Bool :=
  ((tree.received[node]?).getD []).contains block

def receivedCount (tree : BlockTree β) (node : Nat) : Nat :=
  ((tree.received[node]?).getD []).length

/-- Walks up from `current` while it is above `floor`, for at most `fuel` steps,
and tells whether the walk ends at `target`. -/
def climbs (tree : BlockTree β) (target floor : Nat) : (fuel : Nat) → Block β →
    Except Error Bool
  | 0, _ => .ok false
  | fuel + 1, current =>
      if floor < current.height then
        match current.parent with
        | none => .ok false
        | some parent =>
            match tree.block parent with
            | .error error => .error error
            | .ok next => tree.climbs target floor fuel next
      else
        .ok (current.id = target)

/-- Whether `ancestor` is met on the way from `descendant` to the genesis block,
`descendant` itself excluded. -/
def isAncestor (tree : BlockTree β) (ancestor descendant : Nat) : Except Error Bool :=
  match tree.block ancestor with
  | .error error => .error error
  | .ok target =>
      match tree.block descendant with
      | .error error => .error error
      | .ok current =>
          if ancestor = descendant then
            .ok false
          else
            tree.climbs ancestor target.height tree.length current

def hasDirectLink (tree : BlockTree β) (first second : Nat) : Except Error Bool :=
  match tree.block first with
  | .error error => .error error
  | .ok left =>
      match tree.block second with
      | .error error => .error error
      | .ok right =>
          if left.height ≤ right.height then
            tree.isAncestor first second
          else
            tree.isAncestor second first

def pathToGenesis (tree : BlockTree β) : (fuel : Nat) → Block β →
    Except Error (List Nat)
  | 0, _ => .ok []
  | fuel + 1, current =>
      match current.parent with
      | none => .ok []
      | some parent =>
          match tree.block parent with
          | .error error => .error error
          | .ok next =>
              match tree.pathToGenesis fuel next with
              | .error error => .error error
              | .ok path => .ok (parent :: path)

def ancestry (tree : BlockTree β) (id : Nat) : Except Error (List Nat) :=
  match tree.block id with
  | .error error => .error error
  | .ok block =>
      match tree.pathToGenesis tree.length block with
      | .error error => .error error
      | .ok path => .ok (id :: path)

def higher (tree : BlockTree β) (first second : Nat) : Nat :=
  match tree.block? first, tree.block? second with
  | some left, some right => if left.height < right.height then second else first
  | _, _ => first

/-- The higher of two blocks; of two equally high ones, the one created first. -/
def longest (tree : BlockTree β) (first second : Nat) : Nat :=
  match tree.block? first, tree.block? second with
  | some left, some right =>
      if left.height < right.height ∨ left.height = right.height ∧ right.id < left.id then
        second
      else
        first
  | _, _ => first

/-- Along one branch the higher block, and among branches the one with the greater
weight; the first block when neither is. -/
def heaviest (weight : β → Nat) (tree : BlockTree β) (first second : Nat) : Nat :=
  match tree.hasDirectLink first second with
  | .ok true => tree.higher first second
  | _ =>
      match tree.block? first, tree.block? second with
      | some left, some right =>
          if weight left.payload < weight right.payload then second else first
      | _, _ => first

def insert (tree : BlockTree β) (proposal : BlockProposal β) :
    Except Error (Nat × BlockTree β) :=
  match tree.block proposal.parent with
  | .error error => .error error
  | .ok parent =>
      if proposal.height ≤ parent.height then
        .error (.invalidBlock (.notAbove proposal.height parent.id parent.height))
      else
        let id := tree.length
        .ok (id, { tree with
          blocks := tree.blocks ++ [{
            id := id
            producer := some proposal.producer
            height := proposal.height
            parent := some proposal.parent
            valid := proposal.valid
            proposalTime := proposal.proposalTime
            payload := proposal.payload }]
          childLists := (tree.childLists ++ [[]]).modify proposal.parent (· ++ [id]) })

/-- An accepted block of the same producer at the same height, with that
producer. -/
def conflicting (tree : BlockTree β) (block : Block β) : Option (Nat × Nat) :=
  match block.producer with
  | none => none
  | some producer =>
      ((tree.blocksAtHeight block.height).find? fun other =>
        other.id ≠ block.id ∧ other.producer = some producer).map
          fun other => (producer, other.id)

def receive (tree : BlockTree β) (node block : Nat) : BlockTree β :=
  { tree with
    received := tree.received.modify node (· ++ [block])
    accepted := if tree.accepted.contains block then tree.accepted else tree.accepted ++ [block] }

def setHead (tree : BlockTree β) (node head : Nat) : BlockTree β :=
  { tree with heads := tree.heads.set node head }

/-- An accepted block by its id; a block that nobody has received is hidden. -/
def acceptedBlock? (tree : BlockTree β) (id : Nat) : Option (Block β) :=
  if tree.accepted.contains id then tree.block? id else none

end BlockTree

abbrev ForkChoice (β : Type) := BlockTree β → Nat → Nat → Nat

end Simnet
