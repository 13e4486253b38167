import Simnet.LockStep
import Simnet.Proofs.Registry

namespace Simnet

/-! Where two snapshots differ. The search answers with the id of a node, and the id then
serves as an index into both lists; that is sound because nodes are numbered by position. -/

/-- Two lists hold the same items before a place, and there they part: they hold different
items, or just one of them ends. -/
structure PartAt {α : Type} (first second : List α) (place : Nat) : Prop where
  agree : first.take place = second.take place
  parts : (∃ mine yours,
      first[place]? = some mine ∧ second[place]? = some yours ∧ mine ≠ yours) ∨
    (first.length = place ∧ place < second.length) ∨
    (second.length = place ∧ place < first.length)

namespace PartAt

variable {α : Type} {first second : List α} {place other : Nat}

theorem symm (apart : PartAt first second place) : PartAt second first place := by
  constructor
  · exact apart.agree.symm
  · obtain ⟨mine, yours, here, there, differ⟩ | firstEnds | secondEnds := apart.parts
    · exact .inl ⟨yours, mine, there, here, differ.symm⟩
    · exact .inr (.inr firstEnds)
    · exact .inr (.inl secondEnds)

theorem getElem?_ne (apart : PartAt first second place) : first[place]? ≠ second[place]? := by
  obtain ⟨mine, yours, here, there, differ⟩ | ⟨ends, more⟩ | ⟨ends, more⟩ := apart.parts
  · rw [here, there]
    exact fun same => differ (Option.some.inj same)
  · rw [List.getElem?_eq_none (Nat.le_of_eq ends), List.getElem?_eq_getElem more]
    exact nofun
  · rw [List.getElem?_eq_none (Nat.le_of_eq ends), List.getElem?_eq_getElem more]
    exact nofun

theorem getElem?_eq_none_iff (apart : PartAt first second place) :
    first[place]? = none ↔ first.length = place := by
  rw [List.getElem?_eq_none_iff]
  obtain ⟨mine, -, here, -⟩ | ⟨ends, -⟩ | ⟨-, more⟩ := apart.parts
  · have within := (List.getElem?_eq_some_iff.mp here).1
    omega
  · omega
  · omega

theorem ne (apart : PartAt first second place) : first ≠ second := by
  intro same
  apply apart.getElem?_ne
  rw [same]

theorem le (apart : PartAt first second place) (again : PartAt first second other) :
    other ≤ place := by
  apply Nat.le_of_not_lt
  intro before
  apply apart.getElem?_ne
  rw [← List.getElem?_take_of_lt before, again.agree, List.getElem?_take_of_lt before]

theorem unique (apart : PartAt first second place) (again : PartAt first second other) :
    place = other :=
  Nat.le_antisymm (again.le apart) (apart.le again)

end PartAt

namespace Snapshot

def Numbered (snapshot : Snapshot) : Prop :=
  ∀ (place : Nat) (node : NodeSnapshot), snapshot.nodes[place]? = some node → node.id = place

variable {first second : Snapshot} {place : Nat}

theorem take_eq_of_zip {α : Type} {left right : List α} (within : place ≤ left.length)
    (alsoWithin : place ≤ right.length)
    (same : ∀ (earlier : Nat) (bound : earlier < (left.zip right).length), earlier < place →
      (left.zip right)[earlier].1 = (left.zip right)[earlier].2) :
    left.take place = right.take place := by
  apply List.ext_getElem
  · rw [List.length_take, List.length_take]
    omega
  · intro earlier bound alsoBound
    rw [List.length_take] at bound
    have known : earlier < (left.zip right).length := by
      rw [List.length_zip]
      omega
    have equal := same earlier known (by omega)
    rw [List.getElem_zip] at equal
    rw [List.getElem_take, List.getElem_take]
    exact equal

/-- What the search finds is the place where the nodes part; it finds nothing only in lists
that are equal. -/
theorem firstDifference_cases (numbered : first.Numbered) (second : Snapshot) :
    (first.firstDifference second = none ∧ first.nodes = second.nodes) ∨
      ∃ place, first.firstDifference second = some place ∧
        PartAt first.nodes second.nodes place := by
  have length : (first.nodes.zip second.nodes).length =
      min first.nodes.length second.nodes.length := List.length_zip
  cases searched : (first.nodes.zip second.nodes).find? fun pair => pair.1 ≠ pair.2 with
  | some pair =>
      obtain ⟨differ, place, bound, rfl, before⟩ := List.find?_eq_some_iff_getElem.mp searched
      have within : place < first.nodes.length := by omega
      have alsoWithin : place < second.nodes.length := by omega
      rw [List.getElem_zip] at differ searched
      have id : first.nodes[place].id = place :=
        numbered place _ (List.getElem?_eq_getElem within)
      refine .inr ⟨place, ?_, ?_, ?_⟩
      · unfold firstDifference
        rw [searched]
        exact congrArg some id
      · apply take_eq_of_zip (Nat.le_of_lt within) (Nat.le_of_lt alsoWithin)
        intro earlier _ earlierBefore
        simpa using before earlier earlierBefore
      · exact .inl ⟨_, _, List.getElem?_eq_getElem within,
          List.getElem?_eq_getElem alsoWithin, of_decide_eq_true differ⟩
  | none =>
      have agree : first.nodes.take (min first.nodes.length second.nodes.length) =
          second.nodes.take (min first.nodes.length second.nodes.length) := by
        apply take_eq_of_zip (Nat.min_le_left ..) (Nat.min_le_right ..)
        intro earlier bound _
        have same := List.find?_eq_none.mp searched _ (List.getElem_mem bound)
        simpa using same
      unfold firstDifference
      rw [searched]
      by_cases even : first.nodes.length = second.nodes.length
      · refine .inl ⟨if_pos even, ?_⟩
        rw [even, Nat.min_self, List.take_length, ← even, List.take_length] at agree
        exact agree
      · refine .inr ⟨_, if_neg even, agree, ?_⟩
        right
        omega

theorem firstDifference_eq_none_iff (numbered : first.Numbered) :
    first.firstDifference second = none ↔ first.nodes = second.nodes := by
  obtain ⟨nothing, same⟩ | ⟨place, found, apart⟩ := firstDifference_cases numbered second
  · rw [nothing]
    exact ⟨fun _ => same, fun _ => rfl⟩
  · rw [found]
    exact ⟨nofun, fun same => absurd same apart.ne⟩

theorem firstDifference_eq_some_iff (numbered : first.Numbered) :
    first.firstDifference second = some place ↔ PartAt first.nodes second.nodes place := by
  obtain ⟨nothing, same⟩ | ⟨found, finds, apart⟩ := firstDifference_cases numbered second
  · rw [nothing]
    exact ⟨nofun, fun apart => absurd same apart.ne⟩
  · rw [finds, Option.some.injEq]
    constructor
    · intro same
      rw [← same]
      exact apart
    · exact apart.unique

theorem firstDifference_comm (numbered : first.Numbered) (alsoNumbered : second.Numbered) :
    first.firstDifference second = second.firstDifference first := by
  obtain ⟨nothing, same⟩ | ⟨place, found, apart⟩ := firstDifference_cases numbered second
  · rw [nothing, (firstDifference_eq_none_iff alsoNumbered).mpr same.symm]
  · rw [found, (firstDifference_eq_some_iff alsoNumbered).mpr apart.symm]

end Snapshot

namespace Divergence

/-- The divergence tells where two snapshots part: at the position of a node, of which it has
both sides, or outside of the nodes. -/
structure Locates (primary copy : Snapshot) (divergence : Divergence) : Prop where
  outside : divergence.node = none ↔ primary.nodes = copy.nodes ∧
    (primary.time ≠ copy.time ∨ primary.counters ≠ copy.counters)
  blank : divergence.node = none → divergence.primary = none ∧ divergence.copy = none
  inside : ∀ place, divergence.node = some place →
    PartAt primary.nodes copy.nodes place ∧
    divergence.primary = primary.nodes[place]? ∧ divergence.copy = copy.nodes[place]? ∧
    divergence.primary ≠ divergence.copy ∧
    (divergence.primary = none ↔ primary.nodes.length = place) ∧
    (divergence.copy = none ↔ copy.nodes.length = place)

variable {primary copy : Snapshot}

theorem nodes_eq_iff (differ : primary ≠ copy) :
    primary.nodes = copy.nodes ↔ primary.nodes = copy.nodes ∧
      (primary.time ≠ copy.time ∨ primary.counters ≠ copy.counters) := by
  refine ⟨fun same => ⟨same, ?_⟩, And.left⟩
  apply Classical.byContradiction
  intro neither
  simp only [not_or, not_not] at neither
  apply differ
  rw [Snapshot.mk.injEq]
  exact ⟨neither.1, neither.2, same⟩

theorem locates_between (numbered : primary.Numbered) (differ : primary ≠ copy) (step : Nat) :
    (between step primary copy).Locates primary copy where
  outside := (Snapshot.firstDifference_eq_none_iff numbered).trans (nodes_eq_iff differ)
  blank := by
    intro equal
    have searched : primary.firstDifference copy = none := equal
    simp only [between, searched, Option.bind_none, and_self]
  inside := by
    intro place found
    have searched : primary.firstDifference copy = some place := found
    have apart := (Snapshot.firstDifference_eq_some_iff numbered).mp searched
    simp only [between, searched, Option.bind_some, true_and]
    exact ⟨apart, apart.getElem?_ne, apart.getElem?_eq_none_iff,
      apart.symm.getElem?_eq_none_iff⟩

end Divergence

/-! Snapshots of networks -/

section Networks

variable {P : Protocol}

theorem Network.Registered.numbered {network : Network P} (registered : network.Registered) :
    network.snapshot.Numbered := by
  intro place node listed
  simp only [Network.snapshot, List.getElem?_map, Option.map_eq_some_iff] at listed
  obtain ⟨original, found, rfl⟩ := listed
  exact registered place original found

/-- The search for a difference finds the place where the nodes of two numbered snapshots part,
whichever of them comes first. -/
theorem Snapshot.difference_located (P : Protocol) :
    (∀ first second : Snapshot, first.Numbered → second.Numbered →
      first.firstDifference second = second.firstDifference first ∧
      (first.firstDifference second = none ↔ first.nodes = second.nodes) ∧
      (∀ place, first.firstDifference second = some place ↔
        PartAt first.nodes second.nodes place) ∧
      (first ≠ second → ∀ step,
        (Divergence.between step first second).Locates first second)) ∧
    ∀ {α : Type} (behaviour : Behaviour P) config latency genesis (life : Program P α) fuel
      (past rest : List (Moment P)),
      behaviour.All Op.KeepsIds → life.All Op.KeepsIds →
      (life.record (Network.recordRun behaviour fuel)
        (.new config latency genesis)).history = past ++ rest →
      (stateAfter (.new config latency genesis) past).snapshot.Numbered := by
  constructor
  · intro first second numbered alsoNumbered
    exact ⟨firstDifference_comm numbered alsoNumbered, firstDifference_eq_none_iff numbered,
      fun place => firstDifference_eq_some_iff numbered,
      fun differ step => Divergence.locates_between numbered differ step⟩
  · intro α behaviour config latency genesis life fuel past rest bodies keeps lived
    have passes := (Program.life_obeys bodies keeps fuel (.new config latency genesis)).past lived
    exact (passes.registered nofun).numbered

end Networks

def relay.pictured (moments : Nat) : Snapshot :=
  (stateAfter initial (((exchange 1 5).record (Network.recordRun behaviour 4)
    initial).history.take moments)).snapshot

theorem relay_difference_located :
    (∃ node, Divergence.between 1 (relay.pictured 1) (relay.pictured 2) =
      ⟨1, 0, some 1, none, some node⟩ ∧ (relay.pictured 2).nodes[1]? = some node) ∧
    PartAt (relay.pictured 2).nodes (relay.pictured 3).nodes 0 ∧
    (relay.pictured 2).firstDifference (relay.pictured 3) =
      (relay.pictured 3).firstDifference (relay.pictured 2) := by
  obtain ⟨located, numbered⟩ := Snapshot.difference_located relay
  have keeps : (relay.exchange 1 5).All Op.KeepsIds :=
    ⟨trivial, fun _ => ⟨trivial, fun _ => ⟨trivial, fun _ => ⟨trivial, fun _ => trivial⟩⟩⟩⟩
  have pictures : ∀ moments, (relay.pictured moments).Numbered := fun moments =>
    numbered relay.behaviour {} (LatencyModel.fixed 2).latency () (relay.exchange 1 5) 4
      (((relay.exchange 1 5).record (Network.recordRun relay.behaviour 4)
        relay.initial).history.take moments)
      _ relay_keepsIds keeps (List.take_append_drop moments _).symm
  obtain ⟨-, -, -, joined⟩ := located (relay.pictured 1) (relay.pictured 2) (pictures 1) (pictures 2)
  obtain ⟨comm, -, parts, -⟩ :=
    located (relay.pictured 2) (relay.pictured 3) (pictures 2) (pictures 3)
  have differ : relay.pictured 1 ≠ relay.pictured 2 := by decide +kernel
  obtain ⟨-, -, copied, -⟩ := (joined differ 1).inside 1 rfl
  exact ⟨⟨_, rfl, copied.symm⟩, (parts 0).mp rfl, comm⟩

end Simnet
