import Simnet.Proofs.OverlayBuilding

namespace Simnet

/-! Places in lists that are read or written without a check. The operations once more, with
a check at each such place: where the place is outside of its list there is no result. They
end as the operations do as soon as the lists of the layers are as long as the registry. -/

def modifyAt? {α : Type} (items : List α) (index : Nat) (change : α → α) : Option (List α) :=
  if index < items.length then some (items.modify index change) else none

def setAt? {α : Type} (items : List α) (index : Nat) (item : α) : Option (List α) :=
  if index < items.length then some (items.set index item) else none

theorem modifyAt?_eq {α : Type} {items : List α} {index : Nat} (inside : index < items.length)
    (change : α → α) : modifyAt? items index change = some (items.modify index change) :=
  if_pos inside

theorem setAt?_eq {α : Type} {items : List α} {index : Nat} (inside : index < items.length)
    (item : α) : setAt? items index item = some (items.set index item) :=
  if_pos inside

namespace Overlay

def modifyPeers? (overlay : Overlay) (node : Nat) (change : List Nat → List Nat) :
    Option Overlay := do
  let peerLists ← modifyAt? overlay.peerLists node change
  return { overlay with peerLists := peerLists }

def link? (overlay : Overlay) (first second : Nat) : Option Overlay := do
  let half ← overlay.modifyPeers? first (addPeer · second)
  half.modifyPeers? second (addPeer · first)

def unlink? (overlay : Overlay) (first second : Nat) : Option Overlay := do
  let half ← overlay.modifyPeers? first (·.erase second)
  half.modifyPeers? second (·.erase first)

def degree? (overlay : Overlay) (node : Nat) : Option Nat :=
  (overlay.peers? node).map List.length

/-- The bit is set in the row as it was widened, however long that is. -/
def markSeen? (overlay : Overlay) (messageId node : Nat) : Option Overlay := do
  let bits ← setAt? (overlay.widenedBits messageId) node true
  return overlay.setBits messageId bits

/-! Whoever builds an overlay counts the nodes of the registry. -/

def candidatesAmong (nodeCount : Nat) (overlay : Overlay) (node : Nat) : List Nat :=
  (idsBelow nodeCount).filter fun other => other ≠ node ∧ ¬ overlay.areLinked node other

def linkRandomPeer? (nodeCount : Nat) (overlay : Overlay) (node : Nat) (rng : Rng) :
    Option (Overlay × Rng) :=
  match rng.choose (overlay.candidatesAmong nodeCount node) with
  | (none, rng) => some (overlay, rng)
  | (some other, rng) => do
      let linked ← overlay.link? node other
      return (linked, rng)

/-- The degree is looked at before each round and after the last one. -/
def raiseDegree? (nodeCount node : Nat) :
    (missing : Nat) → Overlay → Rng → Option (Overlay × Rng)
  | 0, overlay, rng => do
      let _ ← overlay.degree? node
      return (overlay, rng)
  | missing + 1, overlay, rng => do
      let _ ← overlay.degree? node
      let (overlay, rng) ← linkRandomPeer? nodeCount overlay node rng
      raiseDegree? nodeCount node missing overlay rng

def raiseDegrees? (nodeCount count : Nat) : List Nat → Overlay → Rng → Option (Overlay × Rng)
  | [], overlay, rng => some (overlay, rng)
  | node :: rest, overlay, rng => do
      let degree ← overlay.degree? node
      let (overlay, rng) ← raiseDegree? nodeCount node (count - degree) overlay rng
      raiseDegrees? nodeCount count rest overlay rng

def filterByDegree? (overlay : Overlay) (keep : Nat → Bool) : List Nat → Option (List Nat)
  | [] => some []
  | node :: rest => do
      let degree ← overlay.degree? node
      let kept ← overlay.filterByDegree? keep rest
      return if keep degree then node :: kept else kept

def addLinks? (nodeCount : Nat) : (missing : Nat) → Overlay → Rng → Option (Overlay × Rng)
  | 0, overlay, rng => some (overlay, rng)
  | missing + 1, overlay, rng => do
      let nodes ← overlay.filterByDegree? (fun degree => degree < nodeCount - 1)
        (idsBelow nodeCount)
      match rng.choose nodes with
      | (none, rng) => return (overlay, rng)
      | (some node, rng) =>
          let (overlay, rng) ← linkRandomPeer? nodeCount overlay node rng
          addLinks? nodeCount missing overlay rng

def build? (nodeCount : Nat) (config : OverlayConfig) (overlay : Overlay) (rng : Rng) :
    Option (Overlay × Rng) :=
  if config.minimum then
    raiseDegrees? nodeCount config.connectionCount (idsBelow nodeCount) overlay rng
  else
    let target := nodeCount * config.connectionCount / 2
    addLinks? nodeCount (target - overlay.linkCount) overlay rng

variable {overlay : Overlay} {node first second : Nat}

theorem modifyPeers?_eq (known : node < overlay.nodeCount) (change : List Nat → List Nat) :
    overlay.modifyPeers? node change = some (overlay.modifyPeers node change) := by
  rw [modifyPeers?, modifyAt?_eq (show node < overlay.peerLists.length from known)]
  rfl

theorem link?_eq (firstKnown : first < overlay.nodeCount)
    (secondKnown : second < overlay.nodeCount) :
    overlay.link? first second = some (overlay.link first second) := by
  rw [link?, modifyPeers?_eq firstKnown]
  exact modifyPeers?_eq (by rwa [nodeCount_modifyPeers]) _

theorem unlink?_eq (firstKnown : first < overlay.nodeCount)
    (secondKnown : second < overlay.nodeCount) :
    overlay.unlink? first second = some (overlay.unlink first second) := by
  rw [unlink?, modifyPeers?_eq firstKnown]
  exact modifyPeers?_eq (by rwa [nodeCount_modifyPeers]) _

theorem peers?_eq (known : node < overlay.nodeCount) :
    overlay.peers? node = some (overlay.peers node) := by
  unfold peers peers?
  rw [List.getElem?_eq_getElem known, Option.getD_some]

theorem degree?_eq (known : node < overlay.nodeCount) :
    overlay.degree? node = some (overlay.degree node) := by
  rw [degree?, peers?_eq known]
  rfl

theorem markSeen?_eq (known : node < overlay.nodeCount) (messageId : Nat) :
    overlay.markSeen? messageId node = some (overlay.markSeen messageId node) := by
  have wide := overlay.nodeCount_le_length_widenedBits messageId
  rw [markSeen?, setAt?_eq (Nat.lt_of_lt_of_le known wide)]
  rfl

variable {nodeCount : Nat}

theorem linkRandomPeer?_eq (all : overlay.nodeCount = nodeCount) (known : node < nodeCount)
    (rng : Rng) :
    linkRandomPeer? nodeCount overlay node rng = some (overlay.linkRandomPeer node rng) := by
  subst all
  unfold linkRandomPeer? linkRandomPeer
  rw [show overlay.candidatesAmong overlay.nodeCount node = overlay.candidates node from rfl]
  cases chosen : rng.choose (overlay.candidates node) with
  | mk choice after =>
      cases choice with
      | none => rfl
      | some other =>
          obtain ⟨otherKnown, -⟩ := of_mem_candidates (Rng.mem_of_choose chosen)
          dsimp only
          rw [link?_eq known otherKnown]
          rfl

theorem raiseDegree?_eq (all : overlay.nodeCount = nodeCount) (known : node < nodeCount)
    (missing : Nat) (rng : Rng) :
    raiseDegree? nodeCount node missing overlay rng =
      some (raiseDegree node missing overlay rng) := by
  induction missing generalizing overlay rng with
  | zero =>
      rw [raiseDegree?, degree?_eq (by rwa [all])]
      rfl
  | succ missing induction =>
      rw [raiseDegree?, degree?_eq (by rwa [all])]
      dsimp only [Option.bind_eq_bind, Option.bind_some]
      rw [linkRandomPeer?_eq all known]
      exact induction (by rwa [nodeCount_linkRandomPeer]) _

theorem raiseDegrees?_eq {nodes : List Nat} (all : overlay.nodeCount = nodeCount)
    (known : ∀ node ∈ nodes, node < nodeCount) (count : Nat) (rng : Rng) :
    raiseDegrees? nodeCount count nodes overlay rng =
      some (raiseDegrees count nodes overlay rng) := by
  induction nodes generalizing overlay rng with
  | nil => rfl
  | cons node rest induction =>
      obtain ⟨nodeKnown, restKnown⟩ := List.forall_mem_cons.mp known
      rw [raiseDegrees?, degree?_eq (by rwa [all])]
      dsimp only [Option.bind_eq_bind, Option.bind_some]
      rw [raiseDegree?_eq all nodeKnown]
      exact induction (by rwa [nodeCount_raiseDegree]) restKnown _

theorem filterByDegree?_eq {nodes : List Nat} (known : ∀ node ∈ nodes, node < overlay.nodeCount)
    (keep : Nat → Bool) :
    overlay.filterByDegree? keep nodes =
      some (nodes.filter fun node => keep (overlay.degree node)) := by
  induction nodes with
  | nil => rfl
  | cons node rest induction =>
      obtain ⟨nodeKnown, restKnown⟩ := List.forall_mem_cons.mp known
      rw [filterByDegree?, degree?_eq nodeKnown, induction restKnown, List.filter_cons]
      rfl

theorem addLinks?_eq (all : overlay.nodeCount = nodeCount) (missing : Nat) (rng : Rng) :
    addLinks? nodeCount missing overlay rng = some (addLinks missing overlay rng) := by
  induction missing generalizing overlay rng with
  | zero => rfl
  | succ missing induction =>
      subst all
      have nodes : overlay.filterByDegree? (fun degree => degree < overlay.nodeCount - 1)
          (idsBelow overlay.nodeCount) = some overlay.openNodes :=
        filterByDegree?_eq (fun _ => lt_of_mem_idsBelow) _
      rw [addLinks?, nodes, addLinks]
      dsimp only [Option.bind_eq_bind, Option.bind_some]
      cases chosen : rng.choose overlay.openNodes with
      | mk choice after =>
          cases choice with
          | none => rfl
          | some node =>
              obtain ⟨inRange, -⟩ := List.mem_filter.mp (Rng.mem_of_choose chosen)
              dsimp only
              rw [linkRandomPeer?_eq rfl (lt_of_mem_idsBelow inRange)]
              exact induction (nodeCount_linkRandomPeer ..) _

theorem build?_eq (all : overlay.nodeCount = nodeCount) (config : OverlayConfig) (rng : Rng) :
    build? nodeCount config overlay rng = some (overlay.build config rng) := by
  unfold build? build
  split
  · rw [raiseDegrees?_eq all (fun _ => lt_of_mem_idsBelow), all]
  · rw [addLinks?_eq all, all]

end Overlay

end Simnet
