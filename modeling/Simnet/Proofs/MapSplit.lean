import Mathlib.Data.List.Perm.Basic
import Simnet.Proofs.Division
import Simnet.Proofs.Draws
import Simnet.Proofs.Growth
import Simnet.Proofs.MapMetric
import Simnet.Proofs.Rounding

namespace Simnet

/-! Splits of the map. The nodes on either side of a column are found among the ids in order, so
that the sides which are not empty pass the check of every list of groups. The column is
compared with the coordinate as it is: a position past the edge of the map is on the far side
of every column, wherever it is on the map. -/

section Sides

variable {P : Protocol} {network : Network P} {past : List (Moment P)}

theorem Moment.Lawful.permitting {behaviour : Behaviour P} {good other : Op P → Prop}
    {moment : Moment P} (lawful : moment.Lawful behaviour good)
    (permits : ∀ op, moment.happening = .operated op → other op) :
    moment.Lawful behaviour other := by
  cases lawful with
  | operated quiet _ performed => exact .operated quiet (permits _ rfl) performed
  | began started => exact .began started
  | took popped => exact .took popped
  | rearmed network record next => exact .rearmed network record next
  | halted network => exact .halted network
  | finished idle => exact .finished idle

theorem Moment.keepsIds {moment : Moment P} (keeps : moment.operates Op.overwrites = false)
    (op : Op P) (operated : moment.happening = .operated op) : op.KeepsIds := by
  cases op with
  | setInfo id info =>
      rw [operates, operated] at keeps
      cases keeps
  | _ => trivial

namespace Network

theorem ReachedBy.registered (reached : network.ReachedBy past)
    (keeps : ∀ moment ∈ past, moment.operates Op.overwrites = false) : network.Registered := by
  cases reached with
  | life behaviour config latency genesis _ _ lived =>
      have careful : Passes (Moment.Lawful behaviour Op.KeepsIds) _ past _ :=
        (Program.past_passes lived).of_forall_mem fun moment member lawful =>
          lawful.permitting (Moment.keepsIds (keeps moment member))
      exact careful.registered nofun

/-- The node is there, and on the near side of the column. -/
def isLeft (network : Network P) (column id : Nat) : Bool :=
  (network.node? id).any fun node => node.info.location.x < column

theorem isLeft_of_node {id : Nat} {node : Node P} (found : network.node? id = some node)
    (column : Nat) : network.isLeft column id = decide (node.info.location.x < column) := by
  rw [isLeft, found, Option.any_some]

def side (network : Network P) (column : Nat) (near : Bool) : List Nat :=
  (List.range network.nodeCount).filter fun id => network.isLeft column id == near

theorem mem_side {column id : Nat} {near : Bool} :
    id ∈ network.side column near ↔
      id < network.nodeCount ∧ network.isLeft column id = near := by
  rw [side, List.mem_filter, List.mem_range, beq_iff_eq]

theorem side_perm (network : Network P) (column : Nat) :
    (network.side column true ++ network.side column false).Perm
      (List.range network.nodeCount) := by
  have near : network.side column true =
      (List.range network.nodeCount).filter (network.isLeft column) :=
    List.filter_congr fun _ _ => beq_true _
  have far : network.side column false =
      (List.range network.nodeCount).filter fun id => ! network.isLeft column id :=
    List.filter_congr fun _ _ => beq_false _
  rw [near, far]
  exact List.filter_append_perm _ _

theorem Registered.sides_eq (registered : network.Registered) (column : Nat) :
    network.sides column =
      [network.side column true, network.side column false].filter (! ·.isEmpty) := by
  have ids : ∀ keep : NodeInfo → Bool, (network.nodeInfos.filter keep).map (·.id) =
      (List.range network.nodeCount).filter fun id =>
        (network.node? id).any fun node => keep node.info := by
    intro keep
    rw [nodeInfos, List.filter_map, List.map_map]
    exact registered.ids_filter (keep ·.info)
  have near : (network.nodeInfos.filter fun info => info.location.x < column).map (·.id) =
      network.side column true :=
    (ids _).trans (List.filter_congr fun _ _ => (beq_true _).symm)
  have far : (network.nodeInfos.filter fun info => ¬ info.location.x < column).map (·.id) =
      network.side column false := by
    refine (ids _).trans (List.filter_congr fun id inRange => ?_)
    have known : id < network.nodes.length := List.mem_range.mp inRange
    have found : network.node? id = some network.nodes[id] := List.getElem?_eq_getElem known
    rw [isLeft_of_node found, found, beq_false, Option.any_some, decide_not]
  rw [sides, List.map_cons, List.map_cons, List.map_nil, near, far]

theorem Registered.mem_sides (registered : network.Registered) {column : Nat}
    {members : List Nat} : members ∈ network.sides column ↔
      members ≠ [] ∧ ∃ near, members = network.side column near := by
  rw [registered.sides_eq, List.mem_filter, Bool.exists_bool]
  simp [or_comm, and_comm]

theorem Registered.covers_sides (registered : network.Registered) (column : Nat) :
    Partition.Covers (network.sides column) network.nodeCount := by
  intro id
  rw [registered.sides_eq, List.flatten_filter_not_isEmpty, List.flatten_cons,
    List.flatten_singleton, (network.side_perm column).count_eq, List.nodup_range.count]
  simp only [List.mem_range]

theorem Registered.apart_iff (registered : network.Registered) {column first second : Nat}
    (firstKnown : first < network.nodeCount) (secondKnown : second < network.nodeCount) :
    (∀ members ∈ network.sides column, ¬ (first ∈ members ∧ second ∈ members)) ↔
      network.isLeft column first ≠ network.isLeft column second := by
  constructor
  · intro apart same
    have here : first ∈ network.side column (network.isLeft column first) :=
      mem_side.mpr ⟨firstKnown, rfl⟩
    have alsoHere : second ∈ network.side column (network.isLeft column first) :=
      mem_side.mpr ⟨secondKnown, same.symm⟩
    exact apart _ (registered.mem_sides.mpr ⟨List.ne_nil_of_mem here, _, rfl⟩)
      ⟨here, alsoHere⟩
  · rintro different members inSides ⟨here, alsoHere⟩
    obtain ⟨-, near, rfl⟩ := registered.mem_sides.mp inSides
    exact different ((mem_side.mp here).2.trans (mem_side.mp alsoHere).2.symm)

end Network

/-! Partitions into sides -/

/-- The groups are two at most and none of them is empty; each has its nodes in the order of
their ids, and together they have every node once. -/
structure Partition.InOrder (state : Partition) (nodeCount : Nat) : Prop where
  few : state.groups.length ≤ 2
  nonempty : ∀ members ∈ state.groups, members ≠ []
  ordered : ∀ members ∈ state.groups, members.Pairwise (· < ·)
  covers : Partition.Covers state.groups nodeCount

namespace Network

/-- A partition into the two sides of a column. -/
structure SplitAt (network : Network P) (column : Nat) (state : Partition) : Prop where
  inOrder : state.InOrder network.nodeCount
  separates_iff : ∀ first second {firstNode secondNode},
    network.node? first = some firstNode → network.node? second = some secondNode →
      (state.separates first second = true ↔
        (firstNode.info.location.x < column ↔ ¬ secondNode.info.location.x < column))

theorem Registered.splits (registered : network.Registered) (column : Nat) :
    ∃ state, Partition.ofGroups (network.sides column) network.nodeCount = .ok state ∧
      network.SplitAt column state := by
  have covers := registered.covers_sides column
  obtain ⟨state, accepted⟩ := Partition.ofGroups_isOk_iff.mpr covers
  obtain ⟨groups, divides⟩ := Partition.divides_of_ofGroups accepted
  refine ⟨state, accepted, ?_, ?_⟩
  · refine ⟨?_, ?_, ?_, groups ▸ covers⟩
    · rw [groups, registered.sides_eq]
      exact List.length_filter_le _ _
    · rw [groups]
      exact fun members inSides => (registered.mem_sides.mp inSides).1
    · rw [groups]
      intro members inSides
      obtain ⟨-, near, rfl⟩ := registered.mem_sides.mp inSides
      exact List.pairwise_lt_range.filter _
  · intro first second firstNode secondNode found alsoFound
    have known : first < network.nodeCount := (List.getElem?_eq_some_iff.mp found).1
    have alsoKnown : second < network.nodeCount := (List.getElem?_eq_some_iff.mp alsoFound).1
    rw [divides.separates_iff first known second alsoKnown, groups,
      registered.apart_iff known alsoKnown, isLeft_of_node found, isLeft_of_node alsoFound]
    by_cases near : firstNode.info.location.x < column <;>
      by_cases alsoNear : secondNode.info.location.x < column <;> simp [near, alsoNear]

theorem Registered.partitionByPosition_eq (registered : network.Registered) {fraction : Float}
    (positive : 0 < fraction) (below : fraction < 1) :
    ∃ state, network.partitionByPosition fraction =
        (.ok (), { network with partition := some state }) ∧
      network.SplitAt (boundary fraction) state := by
  obtain ⟨state, accepted, split⟩ := registered.splits (boundary fraction)
  refine ⟨state, ?_, split⟩
  rw [partitionByPosition, if_pos ⟨positive, below⟩, installPartition, accepted]

/-! Places of the map -/

/-- The position is on the map itself, and there on the near side of the column. -/
def NearOnMap (column : Nat) (location : Location) : Prop :=
  location.x < mapWidth ∧ location.x % mapWidth < column

theorem x_lt_iff_nearOnMap {column : Nat} (onMap : column ≤ mapWidth) (location : Location) :
    location.x < column ↔ NearOnMap column location := by
  constructor
  · intro near
    have inside : location.x < mapWidth := Nat.lt_of_lt_of_le near onMap
    exact ⟨inside, by rwa [Nat.mod_eq_of_lt inside]⟩
  · rintro ⟨inside, near⟩
    rwa [Nat.mod_eq_of_lt inside] at near

theorem near_iff_of_samePlace {column : Nat} {first second : Location}
    (same : first.SamePlace second) :
    (NearOnMap column first ↔ ¬ NearOnMap column second) ↔
      first.x % mapWidth < column ∧ (first.x < mapWidth ↔ ¬ second.x < mapWidth) := by
  have columns : first.x % mapWidth = second.x % mapWidth := same.1
  rw [NearOnMap, NearOnMap, ← columns]
  tauto

theorem anywhere_bounds (rng : Rng) :
    1 ≤ (Placement.anywhere rng).1.x ∧ (Placement.anywhere rng).1.x ≤ mapWidth := by
  have drawn : (Placement.anywhere rng).1.x = (rng.between .single 1 mapWidth).1 := rfl
  rw [drawn]
  exact ⟨Rng.le_between .single 1 mapWidth rng, Rng.between_le mapWidth_pos rng⟩

theorem x_eq_of_anywhere {first second : Rng}
    (same : (Placement.anywhere first).1.SamePlace (Placement.anywhere second).1) :
    (Placement.anywhere first).1.x = (Placement.anywhere second).1.x := by
  obtain ⟨least, most⟩ := anywhere_bounds first
  obtain ⟨alsoLeast, alsoMost⟩ := anywhere_bounds second
  have columns := same.1
  simp only [Nat.ModEq, mapWidth] at columns most alsoMost
  omega

/-- A split takes positions as they are, so two nodes in one place are separated just when one of
them is past the edge and the place is on the near side. -/
theorem splits_unwrapped (reached : network.ReachedBy past)
    (keeps : ∀ moment ∈ past, moment.operates Op.overwrites = false) {fraction : Float}
    (positive : 0 < fraction) (below : fraction < 1) :
    ∃ state, network.partitionByPosition fraction =
        (.ok (), { network with partition := some state }) ∧
      ∀ first second firstNode secondNode, network.node? first = some firstNode →
        network.node? second = some secondNode →
        (state.separates first second = true ↔
          (NearOnMap (boundary fraction) firstNode.info.location ↔
            ¬ NearOnMap (boundary fraction) secondNode.info.location)) ∧
        (firstNode.info.distance secondNode.info = 0 →
          (state.separates first second = true ↔
            firstNode.info.location.x % mapWidth < boundary fraction ∧
              (firstNode.info.location.x < mapWidth ↔
                ¬ secondNode.info.location.x < mapWidth)) ∧
          ∀ rng other, firstNode.info.location = (Placement.anywhere rng).1 →
            secondNode.info.location = (Placement.anywhere other).1 →
            state.separates first second = false) := by
  obtain ⟨state, installed, split⟩ :=
    (reached.registered keeps).partitionByPosition_eq positive below
  refine ⟨state, installed, fun first second firstNode secondNode found alsoFound => ?_⟩
  have raw := split.separates_iff first second found alsoFound
  have near := x_lt_iff_nearOnMap (boundary_le positive below)
  refine ⟨?_, fun together => ?_⟩
  · rw [raw, near, near]
  · have same : firstNode.info.location.SamePlace secondNode.info.location :=
      Location.distance_eq_zero_iff.mp together
    constructor
    · rw [raw, near, near, near_iff_of_samePlace same]
    · intro rng other drawn alsoDrawn
      rw [drawn, alsoDrawn] at same
      rw [← Bool.not_eq_true, raw, drawn, alsoDrawn, x_eq_of_anywhere same]
      exact iff_not_self

/-- A split is accepted for every fraction between zero and one, and separates two nodes just
when one of them is on the near side of its column. -/
theorem splits_accepted (reached : network.ReachedBy past)
    (keeps : ∀ moment ∈ past, moment.operates Op.overwrites = false) :
    (∀ column, ∃ state,
      Partition.ofGroups (network.sides column) network.nodeCount = .ok state ∧
      network.SplitAt column state) ∧
    (∀ fraction, 0 < fraction → fraction < 1 →
      boundary fraction ≤ mapWidth ∧
      ∃ state, network.partitionByPosition fraction =
          (.ok (), { network with partition := some state }) ∧
        network.SplitAt (boundary fraction) state) ∧
    ∀ fraction, ¬ (0 < fraction ∧ fraction < 1) →
      network.partitionByPosition fraction =
        (.error (.invalidParameter (.fractionOutOfRange fraction)), network) := by
  have registered := reached.registered keeps
  exact ⟨registered.splits,
    fun _ positive below =>
      ⟨boundary_le positive below, registered.partitionByPosition_eq positive below⟩,
    fun _ outside => if_neg outside⟩

end Network

end Sides

namespace relay

def settlement : Program relay (Except Error Unit) := do
  let _ ← Program.perform (.addNode (.new ⟨0, 7, none⟩ false) ())
  let _ ← Program.perform (.addNode (.new ⟨2000, 7, none⟩ false) ())
  let _ ← Program.perform (.addNode (.new ⟨999, 7, none⟩ false) ())
  Program.perform (.partition [[2], [0, 1]])

def settling : List (Moment relay) :=
  (settlement.record (Network.recordRun behaviour 0) initial).history

def settled : Network relay :=
  stateAfter initial settling

theorem settled_reached : settled.ReachedBy settling :=
  .life behaviour {} (LatencyModel.fixed 2).latency () settlement 0 (List.append_nil _).symm

end relay

theorem relay_splits_accepted :
    (∃ state, relay.settled.partitionByPosition 0.5 =
        (.ok (), { relay.settled with partition := some state }) ∧
      state.InOrder 3 ∧ state.separates 0 2 = false ∧ state.separates 1 2 = true) ∧
    ∀ fraction ∈ [0, 1, -0.5, 0 / 0, 1 / 0],
      relay.settled.partitionByPosition fraction =
        (.error (.invalidParameter (.fractionOutOfRange fraction)), relay.settled) := by
  obtain ⟨-, accepted, refused⟩ :=
    Network.splits_accepted relay.settled_reached (by decide +kernel)
  obtain ⟨-, state, installed, split⟩ := accepted 0.5 (by decide) (by decide)
  have column : Network.boundary 0.5 = 1000 := by decide +kernel
  rw [column] at split
  refine ⟨⟨state, installed, split.inOrder, ?_, ?_⟩, ?_⟩
  · rw [← Bool.not_eq_true, split.separates_iff 0 2 rfl rfl]
    decide
  · rw [split.separates_iff 1 2 rfl rfl]
    decide
  · exact fun fraction member => refused fraction ((by decide :
      ∀ fraction ∈ [(0 : Float), 1, -0.5, 0 / 0, 1 / 0], ¬ (0 < fraction ∧ fraction < 1))
        fraction member)

/-- The edge of the map and its first column are one place, on both sides of the split. -/
theorem relay_samePlace_separated :
    ∃ first second state, relay.settled.node? 0 = some first ∧
      relay.settled.node? 1 = some second ∧ first.info.distance second.info = 0 ∧
      relay.settled.partitionByPosition 0.5 =
        (.ok (), { relay.settled with partition := some state }) ∧
      state.separates 0 1 = true :=
  ⟨_, _, ⟨[[0, 2], [1]], [0, 1, 0]⟩, rfl, rfl, by decide +kernel, rfl, by decide⟩

theorem relay_splits_unwrapped :
    ∃ state, relay.settled.partitionByPosition 0.5 =
        (.ok (), { relay.settled with partition := some state }) ∧
      state.separates 0 1 = true ∧ state.separates 0 2 = false ∧
      state.separates 1 2 = true := by
  obtain ⟨state, installed, separates⟩ :=
    Network.splits_unwrapped relay.settled_reached (by decide +kernel)
      (by decide : (0 : Float) < 0.5) (by decide)
  have column : Network.boundary 0.5 = 1000 := by decide +kernel
  rw [column] at separates
  refine ⟨state, installed, ?_, ?_, ?_⟩
  · exact ((separates 0 1 _ _ rfl rfl).2 (by decide +kernel)).1.mpr (by decide)
  · rw [← Bool.not_eq_true, (separates 0 2 _ _ rfl rfl).1]
    simp only [Network.NearOnMap, mapWidth]
    decide
  · rw [(separates 1 2 _ _ rfl rfl).1]
    simp only [Network.NearOnMap, mapWidth]
    decide

end Simnet
