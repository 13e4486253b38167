import Simnet.Proofs.BlockIndex

namespace Simnet

/-! Parents and children. A block names its parent when it is created, and the lists of
children are kept beside the blocks; both say the same. -/

namespace BlockTree

variable {β : Type} {tree after : BlockTree β} {id parent : Nat} {block : Block β}

def parent? (tree : BlockTree β) (id : Nat) : Option Nat :=
  (tree.block? id).bind (·.parent)

def childrenOf (tree : BlockTree β) (parent : Nat) : List Nat :=
  (List.range tree.length).filter fun id => tree.parent? id = some parent

/-- The way from a block to its parent leads to an earlier and lower one, until it comes to
the genesis block. -/
structure Lineage (tree : BlockTree β) : Prop where
  rooted : ∀ {id block}, tree.block? id = some block → (block.parent = none ↔ id = genesisId)
  descends : ∀ {id block parent}, tree.block? id = some block → block.parent = some parent →
    ∃ above, tree.block? parent = some above ∧ parent < id ∧ above.height < block.height
  listed : tree.childLists = (List.range tree.length).map tree.childrenOf

theorem lt_length_of_block? (found : tree.block? id = some block) : id < tree.length := by
  obtain ⟨bound, -⟩ := List.getElem?_eq_some_iff.mp found
  exact bound

theorem Lineage.parent?_lt (lineage : tree.Lineage) (child : tree.parent? id = some parent) :
    parent < id ∧ id < tree.length := by
  obtain ⟨block, found, names⟩ := Option.bind_eq_some_iff.mp child
  obtain ⟨-, -, below, -⟩ := lineage.descends found names
  exact ⟨below, lt_length_of_block? found⟩

theorem Lineage.lt_of_mem_children (lineage : tree.Lineage) {children : List Nat}
    (listed : children ∈ tree.childLists) (member : id ∈ children) : id < tree.length := by
  rw [lineage.listed] at listed
  obtain ⟨parent, -, rfl⟩ := List.mem_map.mp listed
  exact List.mem_range.mp (List.mem_filter.mp member).1

theorem lineage_new (payload : β) : (new payload).Lineage where
  rooted := by
    intro id block found
    cases id with
    | zero =>
        cases found
        exact ⟨fun _ => rfl, fun _ => rfl⟩
    | succ id => cases found
  descends := by
    intro id block parent found names
    cases id with
    | zero =>
        cases found
        cases names
    | succ id => cases found
  listed := rfl

theorem Lineage.of_same (lineage : tree.Lineage) (blocks : after.blocks = tree.blocks)
    (childLists : after.childLists = tree.childLists) : after.Lineage := by
  obtain ⟨rooted, descends, listed⟩ := lineage
  have sameBlock : after.block? = tree.block? := by
    funext id
    unfold block?
    rw [blocks]
  have sameParent : after.parent? = tree.parent? := by
    funext id
    unfold parent?
    rw [sameBlock]
  constructor
  · rw [sameBlock]
    exact rooted
  · rw [sameBlock]
    exact descends
  · unfold childrenOf length at *
    rw [childLists, listed, blocks, sameParent]

theorem childrenOf_append {created : Block β} (blocks : after.blocks = tree.blocks ++ [created])
    (other : Nat) :
    after.childrenOf other =
      tree.childrenOf other ++ if created.parent = some other then [tree.length] else [] := by
  have old : ∀ id ∈ List.range tree.length, after.parent? id = tree.parent? id := by
    intro id member
    unfold parent? block?
    rw [blocks, List.getElem?_append_left (List.mem_range.mp member)]
  have new : after.parent? tree.length = created.parent := by
    unfold parent? block? length
    rw [blocks, List.getElem?_concat_length]
    rfl
  have length : after.length = tree.length + 1 := by
    unfold BlockTree.length
    rw [blocks, List.length_append, List.length_singleton]
  unfold childrenOf
  rw [length, List.range_succ, List.filter_append, List.filter_singleton, new]
  congr 1
  · exact List.filter_congr fun id member => by rw [old id member]
  · by_cases names : created.parent = some other <;> simp [names]

theorem Lineage.insert (lineage : tree.Lineage) {proposal : BlockProposal β}
    (inserted : tree.insert proposal = .ok (id, after)) : after.Lineage := by
  obtain ⟨above, created, found, higher, -, made, isAfter⟩ := insert_eq_ok_iff.mp inserted
  have parentKnown := lt_length_of_block? found
  have names : created.parent = some proposal.parent := by rw [made]
  have blocks : after.blocks = tree.blocks ++ [created] := by rw [isAfter]
  constructor
  case rooted =>
    intro id block present
    rcases (block?_of_append blocks).mp present with old | ⟨rfl, rfl⟩
    · exact lineage.rooted old
    · rw [names]
      constructor
      · exact nofun
      · intro isGenesis
        have empty : tree.length = 0 := isGenesis
        omega
  case descends =>
    intro id block parent present child
    rcases (block?_of_append blocks).mp present with old | ⟨rfl, rfl⟩
    · obtain ⟨up, upFound, below, lower⟩ := lineage.descends old child
      exact ⟨up, (block?_of_append blocks).mpr (.inl upFound), below, lower⟩
    · rw [names] at child
      cases child
      refine ⟨above, (block?_of_append blocks).mpr (.inl found), parentKnown, ?_⟩
      rw [made]
      exact higher
  case listed =>
    have childLists : after.childLists =
        (tree.childLists ++ [[]]).modify proposal.parent (· ++ [tree.length]) := by
      rw [isAfter]
    have length : after.length = tree.length + 1 := by
      rw [BlockTree.length, blocks, List.length_append]
      rfl
    -- Parents are earlier than their children, so the new block has none.
    have childless : tree.childrenOf tree.length = [] := by
      rw [childrenOf, List.filter_eq_nil_iff]
      intro id member child
      have bounds := lineage.parent?_lt (of_decide_eq_true child)
      omega
    have before : tree.childLists ++ [[]] =
        (List.range (tree.length + 1)).map tree.childrenOf := by
      rw [List.range_succ, List.map_append, List.map_singleton, childless, lineage.listed]
    rw [childLists, before, length]
    apply List.ext_getElem?
    intro other
    rw [List.getElem?_modify, List.getElem?_map, List.getElem?_map]
    by_cases inside : other < tree.length + 1
    · rw [List.getElem?_range inside, Option.map_some, Option.map_some,
        childrenOf_append blocks, names]
      by_cases same : proposal.parent = other <;> simp [same]
    · have beyond : (List.range (tree.length + 1)).length ≤ other := by
        rw [List.length_range]
        omega
      rw [List.getElem?_eq_none beyond]
      rfl

theorem Step.lineage {acceptance : Option (Nat × Nat)} (step : Step acceptance tree after)
    (lineage : tree.Lineage) : after.Lineage := by
  cases step with
  | same => exact lineage
  | joined | accepted => exact lineage.of_same rfl rfl
  | created inserted => exact lineage.insert inserted

end BlockTree

end Simnet
