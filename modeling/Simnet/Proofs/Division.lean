import Mathlib.Data.Setoid.Partition
import Simnet.Proofs.Heads
import Simnet.Proofs.Registry

namespace Simnet

/-! Divisions of the nodes. The check of a list of groups fills one slot for every place in
a group and succeeds exactly when each node has one place, and then the groups that are not
empty are the classes of the nodes that stay together. An active partition stays one of all
the nodes, because none can be added meanwhile. -/

namespace Partition

/-- Every node has one place in one group, and nobody else has any. -/
def Covers (groups : List (List Nat)) (nodeCount : Nat) : Prop :=
  ∀ id, groups.flatten.count id = if id < nodeCount then 1 else 0

theorem covers_iff {groups : List (List Nat)} {nodeCount : Nat} :
    Covers groups nodeCount ↔
      groups.flatten.Nodup ∧ ∀ id, id ∈ groups.flatten ↔ id < nodeCount := by
  constructor
  · intro covers
    refine ⟨List.nodup_iff_count_le_one.mpr fun id => ?_, fun id => ?_⟩
    · rw [covers id]
      split <;> omega
    · rw [← List.count_pos_iff, covers id]
      split <;> simp_all
  · rintro ⟨distinct, same⟩ id
    rw [distinct.count]
    simp only [same]

/-- The places in the groups, in order, each a node with the index of its group; the first
group has index `group`. -/
def places : (group : Nat) → List (List Nat) → List (Nat × Nat)
  | _, [] => []
  | group, members :: rest => members.map (·, group) ++ places (group + 1) rest

theorem map_places (group : Nat) (groups : List (List Nat)) :
    (places group groups).map (·.1) = groups.flatten := by
  induction groups generalizing group with
  | nil => rfl
  | cons members rest induction =>
      rw [places, List.map_append, induction, List.map_map, List.flatten_cons]
      exact congrArg (· ++ rest.flatten) (List.map_id members)

theorem mem_places {group node index : Nat} {groups : List (List Nat)} :
    (node, index) ∈ places group groups ↔
      ∃ offset members, groups[offset]? = some members ∧ node ∈ members ∧
        index = group + offset := by
  induction groups generalizing group with
  | nil => simp [places]
  | cons members rest induction =>
      rw [places, List.mem_append, induction]
      constructor
      · rintro (here | ⟨offset, others, found, member, rfl⟩)
        · obtain ⟨_, member, same⟩ := List.mem_map.mp here
          cases same
          exact ⟨0, members, rfl, member, rfl⟩
        · exact ⟨offset + 1, others, found, member, by omega⟩
      · rintro ⟨offset, others, found, member, rfl⟩
        cases offset with
        | zero =>
            cases found
            exact .inl (List.mem_map_of_mem member)
        | succ offset => exact .inr ⟨offset, others, found, member, by omega⟩

/-- The places, of different nodes whose slots were free, are entered in the slots. -/
structure Fills (entries : List (Nat × Nat)) (slots after : List (Option Nat)) : Prop where
  distinct : (entries.map (·.1)).Nodup
  free : ∀ node ∈ entries.map (·.1), slots[node]? = some none
  entered : ∀ {node group}, (node, group) ∈ entries → after[node]? = some (some group)
  kept : ∀ {node}, node ∉ entries.map (·.1) → after[node]? = slots[node]?

section Fills

variable {slots middle after : List (Option Nat)} {entries rest : List (Nat × Nat)}

theorem Fills.nil (slots : List (Option Nat)) : Fills [] slots slots where
  distinct := .nil
  free := List.forall_mem_nil _
  entered := nofun
  kept _ := rfl

theorem Fills.single {node : Nat} (free : slots[node]? = some none) (group : Nat) :
    Fills [(node, group)] slots (slots.set node (some group)) where
  distinct := List.nodup_singleton node
  free := List.forall_mem_singleton.mpr free
  entered := by
    intro other index member
    cases List.mem_singleton.mp member
    exact List.getElem?_set_self (List.getElem?_eq_some_iff.mp free).1
  kept := by
    intro other different
    exact List.getElem?_set_ne (Ne.symm (List.mem_singleton.not.mp different))

theorem Fills.append (first : Fills entries slots middle) (second : Fills rest middle after) :
    Fills (entries ++ rest) slots after := by
  -- A slot that is free later on has not been filled before.
  have apart : ∀ node ∈ rest.map (·.1), node ∉ entries.map (·.1) := by
    intro node later earlier
    obtain ⟨⟨_, group⟩, member, rfl⟩ := List.mem_map.mp earlier
    have free := second.free _ later
    rw [first.entered member] at free
    cases free
  constructor
  · rw [List.map_append, List.nodup_append]
    refine ⟨first.distinct, second.distinct, ?_⟩
    rintro node earlier _ later rfl
    exact apart node later earlier
  · rw [List.map_append]
    refine List.forall_mem_append.mpr ⟨first.free, fun node later => ?_⟩
    rw [← first.kept (apart node later)]
    exact second.free node later
  · intro node group member
    rcases List.mem_append.mp member with earlier | later
    · rw [second.kept fun again =>
        apart node again (List.mem_map_of_mem (f := (·.1)) earlier)]
      exact first.entered earlier
    · exact second.entered later
  · intro node absent
    rw [List.map_append, List.mem_append, not_or] at absent
    exact (second.kept absent.2).trans (first.kept absent.1)

theorem assign_eq_ok_iff {group node : Nat} :
    assign group slots node = .ok after ↔
      slots[node]? = some none ∧ after = slots.set node (some group) := by
  unfold assign
  split <;> rename_i found <;> rw [found] <;> simp [eq_comm]

theorem fills_of_assignGroup {group : Nat} {members : List Nat}
    (assigned : assignGroup group slots members = .ok after) :
    Fills (members.map (·, group)) slots after := by
  induction members generalizing slots with
  | nil =>
      cases assigned
      exact .nil _
  | cons node others induction =>
      unfold assignGroup at assigned
      split at assigned
      · cases assigned
      · rename_i single
        obtain ⟨free, rfl⟩ := assign_eq_ok_iff.mp single
        exact (Fills.single free group).append (induction assigned)

theorem fills_of_assignGroups {group : Nat} {groups : List (List Nat)}
    (assigned : assignGroups group slots groups = .ok after) :
    Fills (places group groups) slots after := by
  induction groups generalizing group slots with
  | nil =>
      cases assigned
      exact .nil _
  | cons members others induction =>
      unfold assignGroups at assigned
      split at assigned
      · cases assigned
      · rename_i single
        exact (fills_of_assignGroup single).append (induction assigned)

theorem assignGroup_total (group : Nat) {members : List Nat} (distinct : members.Nodup)
    (free : ∀ node ∈ members, slots[node]? = some none) :
    ∃ after, assignGroup group slots members = .ok after := by
  induction members generalizing slots with
  | nil => exact ⟨slots, rfl⟩
  | cons node others induction =>
      obtain ⟨absent, distinct⟩ := List.nodup_cons.mp distinct
      rw [List.forall_mem_cons] at free
      have single : assign group slots node = .ok (slots.set node (some group)) :=
        assign_eq_ok_iff.mpr ⟨free.1, rfl⟩
      unfold assignGroup
      rw [single]
      refine induction distinct fun other member => ?_
      have different : node ≠ other := by
        rintro rfl
        exact absent member
      rw [List.getElem?_set_ne different]
      exact free.2 other member

theorem assignGroups_total (group : Nat) {groups : List (List Nat)}
    (distinct : groups.flatten.Nodup)
    (free : ∀ node ∈ groups.flatten, slots[node]? = some none) :
    ∃ after, assignGroups group slots groups = .ok after := by
  induction groups generalizing group slots with
  | nil => exact ⟨slots, rfl⟩
  | cons members others induction =>
      rw [List.flatten_cons, List.nodup_append] at distinct
      obtain ⟨distinctHere, distinctLater, apart⟩ := distinct
      rw [List.flatten_cons, List.forall_mem_append] at free
      obtain ⟨middle, single⟩ := assignGroup_total group distinctHere free.1
      unfold assignGroups
      rw [single]
      refine induction (group + 1) distinctLater fun node later => ?_
      rw [(fills_of_assignGroup single).kept ?_]
      · exact free.2 node later
      · rw [List.map_map]
        intro earlier
        obtain ⟨_, member, rfl⟩ := List.mem_map.mp earlier
        exact apart _ member _ later rfl

end Fills

theorem getElem?_filterMap_id {slots : List (Option Nat)} (full : none ∉ slots) (node : Nat) :
    slots[node]? = (slots.filterMap id)[node]?.map some := by
  have whole : slots = (slots.filterMap id).map some := by
    induction slots with
    | nil => rfl
    | cons slot rest induction =>
        rw [List.mem_cons, not_or] at full
        obtain ⟨group, rfl⟩ := Option.ne_none_iff_exists'.mp (Ne.symm full.1)
        simpa using induction full.2
  rw [← List.getElem?_map, ← whole]

theorem ofGroups_eq_ok_iff {groups : List (List Nat)} {nodeCount : Nat} {state : Partition} :
    ofGroups groups nodeCount = .ok state ↔
      ∃ slots, assignGroups 0 (List.replicate nodeCount none) groups = .ok slots ∧
        none ∉ slots ∧ state = ⟨groups, slots.filterMap id⟩ := by
  unfold ofGroups
  split
  · rename_i failed
    simp [failed]
  · rename_i slots assigned
    rw [assigned]
    split
    · rename_i node found
      obtain ⟨inRange, isNone, -⟩ := List.findIdx?_eq_some_iff_getElem.mp found
      rw [Option.isNone_iff_eq_none] at isNone
      have uncovered : none ∈ slots := isNone ▸ List.getElem_mem inRange
      simp [uncovered]
    · rename_i covered
      rw [List.findIdx?_eq_none_iff] at covered
      have full : none ∉ slots := fun member => nomatch covered none member
      simp [full, eq_comm]

section Slots

variable {groups : List (List Nat)} {nodeCount : Nat} {slots : List (Option Nat)}

theorem Fills.lt_nodeCount
    (filled : Fills (places 0 groups) (List.replicate nodeCount none) slots) {node : Nat}
    (member : node ∈ groups.flatten) : node < nodeCount := by
  rw [← map_places 0 groups] at member
  have free := filled.free node member
  rw [List.getElem?_replicate] at free
  split at free
  · assumption
  · cases free

theorem Fills.getElem?_eq_none_iff
    (filled : Fills (places 0 groups) (List.replicate nodeCount none) slots) {node : Nat} :
    slots[node]? = some none ↔ node < nodeCount ∧ node ∉ groups.flatten := by
  rw [← map_places 0 groups]
  by_cases member : node ∈ (places 0 groups).map (·.1)
  · obtain ⟨⟨_, group⟩, place, rfl⟩ := List.mem_map.mp member
    rw [filled.entered place]
    simp [member]
  · rw [filled.kept member, List.getElem?_replicate]
    simp [member]

theorem Fills.full_iff
    (filled : Fills (places 0 groups) (List.replicate nodeCount none) slots) :
    none ∉ slots ↔ ∀ node < nodeCount, node ∈ groups.flatten := by
  rw [List.mem_iff_getElem?, not_exists]
  refine forall_congr' fun node => ?_
  rw [filled.getElem?_eq_none_iff]
  tauto

theorem ofGroups_isOk_iff :
    (∃ state, ofGroups groups nodeCount = .ok state) ↔ Covers groups nodeCount := by
  rw [covers_iff]
  constructor
  · rintro ⟨state, accepted⟩
    obtain ⟨slots, assigned, full, -⟩ := ofGroups_eq_ok_iff.mp accepted
    have filled := fills_of_assignGroups assigned
    exact ⟨map_places 0 groups ▸ filled.distinct,
      fun node => ⟨filled.lt_nodeCount, filled.full_iff.mp full node⟩⟩
  · rintro ⟨distinct, same⟩
    have free : ∀ node ∈ groups.flatten,
        (List.replicate nodeCount (none : Option Nat))[node]? = some none := by
      intro node member
      rw [List.getElem?_replicate, if_pos ((same node).mp member)]
    obtain ⟨slots, assigned⟩ := assignGroups_total 0 distinct free
    have full := (fills_of_assignGroups assigned).full_iff.mpr fun node => (same node).mpr
    exact ⟨_, ofGroups_eq_ok_iff.mpr ⟨slots, assigned, full, rfl⟩⟩

end Slots

/-! What an accepted partition says -/

theorem separates_eq_false_iff {state : Partition} {first second : Nat} :
    state.separates first second = false ↔ state.group? first = state.group? second := by
  simp [separates]

def together (state : Partition) (nodeCount : Nat) : Setoid (Fin nodeCount) where
  r first second := state.separates first second = false
  iseqv := by
    constructor <;> simp only [separates_eq_false_iff]
    · exact fun _ => trivial
    · exact Eq.symm
    · exact Eq.trans

/-- The partition has one place for each of the nodes, answers with the group of a node, and
keeps apart the nodes that are in no group together. -/
structure Divides (state : Partition) (nodeCount : Nat) : Prop where
  covers : Covers state.groups nodeCount
  located : ∀ node < nodeCount, ∃ group members, state.group? node = some group ∧
    state.groups[group]? = some members ∧ node ∈ members ∧
    ∀ other others, state.groups[other]? = some others → node ∈ others → other = group
  separates_iff : ∀ first < nodeCount, ∀ second < nodeCount,
    (state.separates first second = true ↔
      ∀ members ∈ state.groups, ¬ (first ∈ members ∧ second ∈ members))
  classes : (state.together nodeCount).classes =
    {side | ∃ members ∈ state.groups, members ≠ [] ∧
      side = {node : Fin nodeCount | ↑node ∈ members}}

/-- The groups cover the nodes, and every place is known to the state. -/
structure Records (state : Partition) (nodeCount : Nat) : Prop where
  covers : Covers state.groups nodeCount
  recorded : ∀ {group members}, state.groups[group]? = some members →
    ∀ node ∈ members, state.group? node = some group

theorem records_of_ofGroups {groups : List (List Nat)} {nodeCount : Nat} {state : Partition}
    (accepted : ofGroups groups nodeCount = .ok state) : state.Records nodeCount := by
  obtain ⟨slots, assigned, full, rfl⟩ := ofGroups_eq_ok_iff.mp accepted
  refine ⟨ofGroups_isOk_iff.mp ⟨_, accepted⟩, ?_⟩
  intro group members found node member
  have place : (node, group) ∈ places 0 groups :=
    mem_places.mpr ⟨group, members, found, member, (Nat.zero_add group).symm⟩
  have entered := (fills_of_assignGroups assigned).entered place
  rw [getElem?_filterMap_id full, Option.map_eq_some_iff] at entered
  obtain ⟨_, known, same⟩ := entered
  cases same
  exact known

section Records

variable {state : Partition} {nodeCount first second : Nat}

theorem Records.located (records : state.Records nodeCount) {node : Nat}
    (known : node < nodeCount) :
    ∃ group members, state.group? node = some group ∧ state.groups[group]? = some members ∧
      node ∈ members := by
  have covered := ((covers_iff.mp records.covers).2 node).mpr known
  obtain ⟨members, inGroups, member⟩ := List.mem_flatten.mp covered
  obtain ⟨group, found⟩ := List.mem_iff_getElem?.mp inGroups
  exact ⟨group, members, records.recorded found node member, found, member⟩

theorem Records.mem_iff (records : state.Records nodeCount) {node group : Nat}
    {members : List Nat} (known : node < nodeCount)
    (found : state.groups[group]? = some members) :
    node ∈ members ↔ state.group? node = some group := by
  refine ⟨records.recorded found node, fun grouped => ?_⟩
  obtain ⟨other, others, same, place, member⟩ := records.located known
  rw [grouped] at same
  cases same
  rw [found] at place
  cases place
  exact member

theorem Records.separates_iff (records : state.Records nodeCount)
    (firstKnown : first < nodeCount) (secondKnown : second < nodeCount) :
    state.separates first second = true ↔
      ∀ members ∈ state.groups, ¬ (first ∈ members ∧ second ∈ members) := by
  rw [← Bool.not_eq_false, separates_eq_false_iff]
  constructor
  · rintro apart members inGroups ⟨firstMember, secondMember⟩
    obtain ⟨group, found⟩ := List.mem_iff_getElem?.mp inGroups
    exact apart ((records.recorded found first firstMember).trans
      (records.recorded found second secondMember).symm)
  · intro apart same
    obtain ⟨group, members, grouped, found, member⟩ := records.located firstKnown
    rw [same] at grouped
    exact apart members (List.mem_of_getElem? found)
      ⟨member, (records.mem_iff secondKnown found).mpr grouped⟩

theorem Records.class_eq (records : state.Records nodeCount) (node : Fin nodeCount)
    {group : Nat} {members : List Nat} (found : state.groups[group]? = some members)
    (member : ↑node ∈ members) :
    {other | state.together nodeCount other node} =
      {other : Fin nodeCount | ↑other ∈ members} := by
  ext other
  change state.separates other node = false ↔ ↑other ∈ members
  rw [separates_eq_false_iff, records.recorded found node member,
    records.mem_iff other.isLt found]

theorem Records.classes_eq (records : state.Records nodeCount) :
    (state.together nodeCount).classes =
      {side | ∃ members ∈ state.groups, members ≠ [] ∧
        side = {node : Fin nodeCount | ↑node ∈ members}} := by
  ext side
  constructor
  · rintro ⟨node, rfl⟩
    obtain ⟨group, members, -, found, member⟩ := records.located node.isLt
    exact ⟨members, List.mem_of_getElem? found, List.ne_nil_of_mem member,
      records.class_eq node found member⟩
  · rintro ⟨members, inGroups, nonempty, rfl⟩
    obtain ⟨node, member⟩ := List.exists_mem_of_ne_nil members nonempty
    obtain ⟨group, found⟩ := List.mem_iff_getElem?.mp inGroups
    have known : node < nodeCount :=
      ((covers_iff.mp records.covers).2 node).mp (List.mem_flatten_of_mem inGroups member)
    exact ⟨⟨node, known⟩, (records.class_eq ⟨node, known⟩ found member).symm⟩

theorem Records.divides (records : state.Records nodeCount) : state.Divides nodeCount where
  covers := records.covers
  located := by
    intro node known
    obtain ⟨group, members, grouped, found, member⟩ := records.located known
    refine ⟨group, members, grouped, found, member, fun other others place again => ?_⟩
    have same := records.recorded place node again
    rw [grouped] at same
    exact (Option.some.inj same).symm
  separates_iff _ firstKnown _ secondKnown := records.separates_iff firstKnown secondKnown
  classes := records.classes_eq

end Records

theorem divides_of_ofGroups {groups : List (List Nat)} {nodeCount : Nat} {state : Partition}
    (accepted : ofGroups groups nodeCount = .ok state) :
    state.groups = groups ∧ state.Divides nodeCount := by
  obtain ⟨slots, -, -, rfl⟩ := ofGroups_eq_ok_iff.mp accepted
  exact ⟨rfl, (records_of_ofGroups accepted).divides⟩

end Partition

/-! Partitions of networks -/

section Networks

variable {P : Protocol} {network before after : Network P}

theorem Network.nodeCount_of_cores (same : after.cores = network.cores) :
    after.nodeCount = network.nodeCount := by
  simpa [Network.cores, Network.nodeCount] using congrArg List.length same

theorem Network.nodeCount_updateNode {id : Nat} {change : Node P → Node P}
    {outcome : Except Error Unit} (updated : network.updateNode id change = (outcome, after)) :
    after.nodeCount = network.nodeCount := by
  unfold Network.updateNode at updated
  split at updated <;> cases updated
  · rfl
  · exact Network.nodeCount_modifyNode ..

@[simp] theorem Network.started_countEvent (network : Network P) (event : Event P)
    (reaction : Reaction) : (network.countEvent event reaction).started = network.started := by
  cases event <;> cases reaction <;> rfl

@[simp] theorem Network.partition_countEvent (network : Network P) (event : Event P)
    (reaction : Reaction) :
    (network.countEvent event reaction).partition = network.partition := by
  cases event <;> cases reaction <;> rfl

theorem Network.partition_commitFate (message : P.Message) (sender : Nat)
    (network : Network P) (decision : Nat × Fate) :
    (commitFate message sender network decision).partition = network.partition := by
  obtain ⟨receiver, fate⟩ := decision
  cases fate <;> rfl

/-! No node is added -/

theorem Op.nodeCount_of_frozen {op : Op P} {answer : op.Answer} (quiet : op.isRun = false)
    (frozen : network.started = true ∨ network.partition ≠ none)
    (performed : op.perform idle network = some (answer, after)) :
    after.nodeCount = network.nodeCount := by
  cases plain : op.editsNodes with
  | false => exact Network.nodeCount_of_cores (cores_perform quiet plain performed)
  | true =>
      cases op with
      | addNode info state =>
          rcases Network.addNode_cases (Option.some.inj performed) with
            rfl | ⟨early, whole, -, -⟩
          · rfl
          · rcases frozen with started | divided
            · rw [early] at started
              cases started
            · exact absurd whole divided
      | setState _ _ | setLocation _ _ | setInfo _ _ | setDown _ _ | markDone _
      | disconnect _ => exact Network.nodeCount_updateNode (Option.some.inj performed)
      | _ => cases plain

variable {behaviour : Behaviour P} {good : Op P → Prop} {moment : Moment P}

theorem Moment.Lawful.started_kept (lawful : moment.Lawful behaviour good)
    (started : moment.before.started = true) : moment.after.started = true := by
  cases lawful with
  | operated quiet _ performed =>
      obtain ⟨_, effect⟩ := Network.effect_perform False quiet False.elim performed
      rw [effect.started, started]
  | began start =>
      obtain ⟨-, -, rfl⟩ := Network.start_eq_ok start
      rfl
  | took _ =>
      rw [Network.started_countEvent]
      exact started
  | rearmed | halted | finished => exact started

theorem Moment.Lawful.nodeCount_of_frozen (lawful : moment.Lawful behaviour good)
    (frozen : moment.before.started = true ∨ moment.before.partition ≠ none) :
    moment.after.nodeCount = moment.before.nodeCount := by
  cases lawful with
  | operated quiet _ performed => exact Op.nodeCount_of_frozen quiet frozen performed
  | began start =>
      obtain ⟨-, -, rfl⟩ := Network.start_eq_ok start
      rfl
  | took _ => exact Network.nodeCount_countEvent ..
  | rearmed | halted | finished => rfl

theorem Passes.nodeCount_of_started {past : List (Moment P)}
    (passes : Passes (Moment.Lawful behaviour good) before past after)
    (started : before.started = true) : after.nodeCount = before.nodeCount := by
  have kept := passes.preserves
    (motive := fun _ network => network.started = true ∧ network.nodeCount = before.nodeCount)
    ⟨started, rfl⟩ fun _ _ lawful ⟨running, same⟩ =>
      ⟨lawful.started_kept running, (lawful.nodeCount_of_frozen (.inl running)).trans same⟩
  exact kept.2

namespace Network

theorem nodeCount_runUntil {fuel deadline : Nat} {outcome : Except Error Unit}
    (ran : runUntil behaviour fuel deadline network = some (outcome, after)) :
    after.nodeCount = network.nodeCount := by
  unfold runUntil startThen at ran
  split at ran
  · cases ran
    rfl
  · rename_i started start
    obtain ⟨-, -, rfl⟩ := start_eq_ok start
    rw [← records_drain behaviour fuel deadline] at ran
    obtain ⟨stop, passes, ends⟩ := recordDrain_grounded
      (behaviour.all_of_forall fun _ => trivial) fuel deadline
      { network with started := true }
    rw [ends outcome after ran]
    exact (passes.weaken fun _ grounded => grounded.lawful).nodeCount_of_started rfl

theorem nodeCount_runTo {fuel : Nat} {deadline : Except Error Nat}
    {outcome : Except Error Unit}
    (ran : network.runTo (runUntil behaviour fuel) deadline = some (outcome, after)) :
    after.nodeCount = network.nodeCount := by
  unfold runTo at ran
  split at ran
  · cases ran
    rfl
  · exact nodeCount_runUntil ran

theorem nodeCount_of_partition {fuel : Nat} {op : Op P} {answer : op.Answer}
    (divided : network.partition ≠ none)
    (performed : op.perform (runUntil behaviour fuel) network = some (answer, after)) :
    after.nodeCount = network.nodeCount := by
  cases quiet : op.isRun with
  | false =>
      rw [Op.perform_idle quiet] at performed
      exact Op.nodeCount_of_frozen quiet (.inr divided) performed
  | true =>
      cases op with
      | runUntil deadline => exact nodeCount_runUntil performed
      | runFor milliseconds | runSeconds seconds => exact nodeCount_runTo performed
      | _ => cases quiet

/-! The active partition -/

def Divided (network : Network P) : Prop :=
  ∀ state, network.partition = some state → state.Records network.nodeCount

theorem Divided.of_same (divided : before.Divided) (same : after.partition = before.partition)
    (count : after.nodeCount = before.nodeCount) : after.Divided := by
  intro state active
  rw [count]
  exact divided state (same ▸ active)

theorem Divided.of_whole (whole : network.partition = none) : network.Divided := by
  intro state active
  rw [whole] at active
  cases active

variable {kept : Prop}

theorem Change.divided (change : Change kept before after) (divided : before.Divided) :
    after.Divided := by
  cases change with
  | draw | enlist | link | unlink | build | mark | insert | receive =>
      exact divided.of_same rfl rfl
  | edit _ => exact divided.of_same rfl (nodeCount_modifyNode ..)
  | settle => exact divided.of_same (partition_commitFate ..) (nodeCount_commitFate ..)
  | join _ _ whole => exact .of_whole whole
  | heal => exact .of_whole rfl
  | divide covers =>
      intro state active
      cases active
      exact Partition.records_of_ofGroups covers

theorem Changes.divided (changes : Changes kept before after) (divided : before.Divided) :
    after.Divided := by
  induction changes with
  | refl => exact divided
  | tail _ change induction => exact change.divided induction

end Network

theorem Moment.Lawful.divided (lawful : moment.Lawful behaviour good)
    (divided : moment.before.Divided) : moment.after.Divided := by
  cases lawful with
  | operated quiet _ performed =>
      have changes : Network.Changes False _ _ :=
        Network.changes_perform quiet False.elim performed
      exact changes.divided divided
  | began start =>
      obtain ⟨-, -, rfl⟩ := Network.start_eq_ok start
      exact divided.of_same rfl rfl
  | took popped =>
      exact divided.of_same (Network.partition_countEvent ..) (Network.nodeCount_countEvent ..)
  | rearmed | halted | finished => exact divided.of_same rfl rfl

namespace Network

theorem ReachedBy.divided {past : List (Moment P)} (reached : network.ReachedBy past) :
    network.Divided := by
  cases reached with
  | life _ config latency genesis _ _ lived =>
      exact (Program.past_passes lived).preserves (motive := fun _ network => network.Divided)
        (.of_whole rfl) fun _ _ lawful before => lawful.divided before

/-- The partition is one of all the nodes there are, and no operation adds another one. -/
structure DividedBy (network : Network P) (state : Partition) : Prop where
  divides : state.Divides network.nodeCount
  refused : ∀ info nodeState, ∃ error,
    network.addNode info nodeState = (.error error, network)
  frozen : ∀ (behaviour : Behaviour P) fuel (op : Op P) (answer : op.Answer) after,
    op.perform (runUntil behaviour fuel) network = some (answer, after) →
      after.nodeCount = network.nodeCount

/-- The call puts a partition into the groups in the place of the one before and changes
nothing else, or it fails and changes nothing at all. -/
structure Installs (network : Network P) (groups : List (List Nat)) (call : Outcome P Unit) :
    Prop where
  refused : ∀ error, call.1 = .error error → call.2 = network
  replaced : call.1 = .ok () → ∃ state, state.groups = groups ∧
    state.Divides network.nodeCount ∧ call.2 = { network with partition := some state }

theorem refused_of_partition (divided : network.partition ≠ none) (info : NodeInfo)
    (nodeState : P.State) :
    ∃ error, network.addNode info nodeState = (.error error, network) := by
  have active := Option.isSome_iff_ne_none.mpr divided
  unfold addNode
  cases network.started with
  | true => exact ⟨_, rfl⟩
  | false =>
      rw [active]
      exact ⟨_, rfl⟩

theorem installs_installPartition (network : Network P) (groups : List (List Nat)) :
    network.Installs groups (network.installPartition groups) := by
  unfold installPartition
  split
  · exact ⟨fun _ _ => rfl, nofun⟩
  · rename_i state accepted
    obtain ⟨same, divides⟩ := Partition.divides_of_ofGroups accepted
    exact ⟨nofun, fun _ => ⟨state, same, divides, rfl⟩⟩

theorem installPartition_eq_ok_iff (network : Network P) (groups : List (List Nat)) :
    (network.installPartition groups).1 = .ok () ↔
      Partition.Covers groups network.nodeCount := by
  rw [← Partition.ofGroups_isOk_iff]
  unfold installPartition
  split <;> rename_i outcome <;> rw [outcome] <;> simp

theorem installs_partitionByPosition (network : Network P) (fraction : Float) :
    network.Installs (network.sides (boundary fraction))
      (network.partitionByPosition fraction) := by
  unfold partitionByPosition
  split
  · exact network.installs_installPartition _
  · exact ⟨fun _ _ => rfl, nofun⟩

/-- The check of a list of groups accepts those that have each node once and nobody else. In
every network that a life comes to, the active partition is such a one. -/
theorem partitions_exact (P : Protocol) :
    (∀ groups nodeCount,
      ((∃ state, Partition.ofGroups groups nodeCount = .ok state) ↔
        Partition.Covers groups nodeCount) ∧
      ∀ state, Partition.ofGroups groups nodeCount = .ok state →
        state.groups = groups ∧ state.Divides nodeCount) ∧
    ∀ (network : Network P) past, network.ReachedBy past →
      (∀ state, network.partition = some state → network.DividedBy state) ∧
      (∀ groups,
        ((network.installPartition groups).1 = .ok () ↔
          Partition.Covers groups network.nodeCount) ∧
        network.Installs groups (network.installPartition groups)) ∧
      ∀ fraction, network.Installs (network.sides (boundary fraction))
        (network.partitionByPosition fraction) := by
  refine ⟨fun groups nodeCount => ⟨Partition.ofGroups_isOk_iff,
    fun _ => Partition.divides_of_ofGroups⟩, fun network past reached => ⟨?_, ?_, ?_⟩⟩
  · intro state active
    have divided : network.partition ≠ none := active ▸ nofun
    exact ⟨(reached.divided state active).divides, refused_of_partition divided,
      fun _ _ _ _ _ => nodeCount_of_partition divided⟩
  · exact fun groups => ⟨network.installPartition_eq_ok_iff groups,
      network.installs_installPartition groups⟩
  · exact network.installs_partitionByPosition

end Network

end Networks

namespace relay

def division : Program relay (Except Error Unit) := do
  let _ ← Program.perform (.addNode (.new ⟨0, 0, none⟩ false) ())
  let _ ← Program.perform (.addNode (.new ⟨3, 4, none⟩ false) ())
  let _ ← Program.perform (.addNode (.new ⟨6, 8, none⟩ false) ())
  Program.perform (.partition [[2], [], [1, 0]])

def divided : Network relay :=
  stateAfter initial (division.record (Network.recordRun behaviour 0) initial).history

end relay

theorem relay_partitions_exact :
    (∃ state, relay.divided.partition = some state ∧ relay.divided.DividedBy state ∧
      state.separates 0 2 = true ∧ state.separates 0 1 = false) ∧
    (∃ error, relay.divided.installPartition [[0, 1], [1, 2]] = (.error error, relay.divided)) ∧
    ∃ after, relay.divided.installPartition [[0], [1, 2]] = (.ok (), after) ∧
      ∃ state, state.groups = [[0], [1, 2]] ∧ state.Divides 3 ∧
        after = { relay.divided with partition := some state } := by
  obtain ⟨active, installs, -⟩ := (Network.partitions_exact relay).2 relay.divided _
    (.life relay.behaviour {} (LatencyModel.fixed 2).latency () relay.division 0
      (List.append_nil _).symm)
  have divided : relay.divided.partition = some ⟨[[2], [], [1, 0]], [2, 2, 0]⟩ := rfl
  refine ⟨⟨_, divided, active _ divided, rfl, rfl⟩, ?_, ?_⟩
  · have failed : (relay.divided.installPartition [[0, 1], [1, 2]]).1 =
        .error (.invalidPartition (.overlap 1 0 1)) := rfl
    exact ⟨_, Prod.ext failed ((installs _).2.refused _ failed)⟩
  · have accepted : (relay.divided.installPartition [[0], [1, 2]]).1 = .ok () := rfl
    exact ⟨_, Prod.ext accepted rfl, (installs _).2.replaced accepted⟩

end Simnet
