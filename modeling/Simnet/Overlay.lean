import Simnet.Clock
import Simnet.Rng.Draw

namespace Simnet

/-! The peer-to-peer overlay: which nodes are linked, and which node has already
seen which flooded message. The peers of a node are kept in the order in which
they were linked. -/

/-- The ids below a count of nodes. Ids are words of 32 bits and the count is cut to one
as well, so at the greatest count of all there are none. -/
def idsBelow (count : Nat) : List Nat :=
  List.range (count % 0x100000000)

structure OverlayConfig where
  connectionCount : Nat
  /-- Whether the count is a lower bound for every node, or the average. -/
  minimum : Bool
deriving DecidableEq, Repr

namespace OverlayConfig

def validate (config : OverlayConfig) (nodeCount : Nat) : Except Error Unit :=
  if config.connectionCount = 0 ∨ nodeCount ≤ config.connectionCount then
    .error (.invalidParameter (.connectionCount config.connectionCount nodeCount))
  else
    .ok ()

end OverlayConfig

structure FloodHeader where
  /-- Names the flood; a node forwards each flood once. -/
  messageId : Nat
  localDelay : Nat := 0
  delayBetweenPeers : Nat := 0
deriving DecidableEq, Repr

structure Overlay where
  peerLists : List (List Nat) := []
  /-- For each flood that anyone has seen, a bit for each node that was there when the
  flood was last marked. -/
  seen : List (Nat × List Bool) := []
deriving DecidableEq, Repr

namespace Overlay

def empty : Overlay := {}

def addNode (overlay : Overlay) : Overlay :=
  { overlay with peerLists := overlay.peerLists ++ [[]] }

def peers? (overlay : Overlay) (node : Nat) : Option (List Nat) :=
  overlay.peerLists[node]?

def peers (overlay : Overlay) (node : Nat) : List Nat :=
  (overlay.peers? node).getD []

def degree (overlay : Overlay) (node : Nat) : Nat :=
  (overlay.peers node).length

def areLinked (overlay : Overlay) (first second : Nat) : Bool :=
  (overlay.peers first).contains second

def degreeSum (overlay : Overlay) : Nat :=
  (overlay.peerLists.map List.length).foldr (· + ·) 0

/-- Every link is in two lists. -/
def linkCount (overlay : Overlay) : Nat :=
  overlay.degreeSum / 2

def averageDegree (overlay : Overlay) : Float :=
  if overlay.peerLists.isEmpty then
    0
  else
    Float.ofNat (overlay.linkCount * 2) / Float.ofNat overlay.peerLists.length

def minDegree (overlay : Overlay) : Nat :=
  ((overlay.peerLists.map List.length).min?).getD 0

def seenBits? (overlay : Overlay) (messageId : Nat) : Option (List Bool) :=
  overlay.seen.lookup messageId

def hasSeen (overlay : Overlay) (messageId node : Nat) : Bool :=
  match overlay.seenBits? messageId with
  | none => false
  | some bits => (bits[node]?).getD false

def widenedBits (overlay : Overlay) (messageId : Nat) : List Bool :=
  let width := overlay.peerLists.length
  match overlay.seenBits? messageId with
  | none => List.replicate width false
  | some bits =>
      if bits.length < width then
        bits ++ List.replicate (width - bits.length) false
      else
        bits

def setBits (overlay : Overlay) (messageId : Nat) (bits : List Bool) : Overlay :=
  { overlay with
    seen := (messageId, bits) :: overlay.seen.filter fun row => row.1 ≠ messageId }

def markSeen (overlay : Overlay) (messageId node : Nat) : Overlay :=
  overlay.setBits messageId ((overlay.widenedBits messageId).set node true)

def addPeer (peers : List Nat) (peer : Nat) : List Nat :=
  if peers.contains peer then peers else peers ++ [peer]

def modifyPeers (overlay : Overlay) (node : Nat) (change : List Nat → List Nat) :
    Overlay :=
  { overlay with peerLists := overlay.peerLists.modify node change }

def link (overlay : Overlay) (first second : Nat) : Overlay :=
  (overlay.modifyPeers first (addPeer · second)).modifyPeers second (addPeer · first)

def unlink (overlay : Overlay) (first second : Nat) : Overlay :=
  (overlay.modifyPeers first (·.erase second)).modifyPeers second (·.erase first)

def nodeCount (overlay : Overlay) : Nat :=
  overlay.peerLists.length

def candidates (overlay : Overlay) (node : Nat) : List Nat :=
  (idsBelow overlay.nodeCount).filter fun other =>
    other ≠ node ∧ ¬ overlay.areLinked node other

def linkRandomPeer (overlay : Overlay) (node : Nat) (rng : Rng) : Overlay × Rng :=
  match rng.choose (overlay.candidates node) with
  | (none, rng) => (overlay, rng)
  | (some other, rng) => (overlay.link node other, rng)

def raiseDegree (node : Nat) : (missing : Nat) → Overlay → Rng → Overlay × Rng
  | 0, overlay, rng => (overlay, rng)
  | missing + 1, overlay, rng =>
      let (overlay, rng) := overlay.linkRandomPeer node rng
      raiseDegree node missing overlay rng

def raiseDegrees (count : Nat) : List Nat → Overlay → Rng → Overlay × Rng
  | [], overlay, rng => (overlay, rng)
  | node :: rest, overlay, rng =>
      let missing := count - overlay.degree node
      let (overlay, rng) := raiseDegree node missing overlay rng
      raiseDegrees count rest overlay rng

def openNodes (overlay : Overlay) : List Nat :=
  (idsBelow overlay.nodeCount).filter fun node =>
    overlay.degree node < overlay.nodeCount - 1

def addLinks : (missing : Nat) → Overlay → Rng → Overlay × Rng
  | 0, overlay, rng => (overlay, rng)
  | missing + 1, overlay, rng =>
      match rng.choose overlay.openNodes with
      | (none, rng) => (overlay, rng)
      | (some node, rng) =>
          let (overlay, rng) := overlay.linkRandomPeer node rng
          addLinks missing overlay rng

def build (config : OverlayConfig) (overlay : Overlay) (rng : Rng) : Overlay × Rng :=
  if config.minimum then
    raiseDegrees config.connectionCount (idsBelow overlay.nodeCount) overlay rng
  else
    let target := overlay.nodeCount * config.connectionCount / 2
    addLinks (target - overlay.linkCount) overlay rng

end Overlay

end Simnet
