import Mathlib.Data.List.Induction
import Simnet.Proofs.BlockIndex

namespace Simnet

/-! The accepted blocks by their heights. The list of accepted blocks is refined to a map from
each height to the ids that were accepted at it, in order: a first acceptance enters one id
into the map, and what is asked of the list is found in the map under one height. -/

abbrev HeightIndex := Std.ExtTreeMap Nat (List Nat)

namespace HeightIndex

def addId (ids : List Nat) (id : Nat) : List Nat :=
  if ids.contains id then ids else ids ++ [id]

def enter (index : HeightIndex) (height id : Nat) : HeightIndex :=
  index.alter height fun ids => some (addId (ids.getD []) id)

def idsAt (index : HeightIndex) (height : Nat) : List Nat :=
  (index[height]?).getD []

theorem getElem?_enter (index : HeightIndex) (height id other : Nat) :
    (index.enter height id)[other]? =
      if other = height then some (addId (index.idsAt height) id) else index[other]? := by
  unfold enter
  rw [Std.ExtTreeMap.getElem?_alter]
  by_cases same : other = height
  · subst same
    rw [if_pos (Nat.compare_eq_eq.mpr rfl), if_pos rfl]
    rfl
  · rw [if_neg fun equal => same (Nat.compare_eq_eq.mp equal).symm, if_neg same]

end HeightIndex

namespace BlockTree

open HeightIndex

variable {β : Type} {tree after : BlockTree β} {node id : Nat} {block : Block β}

def enterAll (blocks : List (Block β)) : HeightIndex :=
  blocks.foldl (fun index block => index.enter block.height block.id) ∅

/-- The map that the accepted blocks make when they are entered one by one. -/
def heightIndex (tree : BlockTree β) : HeightIndex :=
  enterAll tree.acceptedBlocks

theorem enterAll_append (blocks : List (Block β)) (block : Block β) :
    enterAll (blocks ++ [block]) = (enterAll blocks).enter block.height block.id := by
  rw [enterAll, List.foldl_append]
  rfl

theorem getElem?_enterAll {blocks : List (Block β)} (distinct : (blocks.map (·.id)).Nodup)
    (height : Nat) : (enterAll blocks)[height]? =
      match (blocks.filter (·.height = height)).map (·.id) with
      | [] => none
      | first :: rest => some (first :: rest) := by
  induction blocks using List.reverseRecOn generalizing height with
  | nil => exact Std.ExtTreeMap.getElem?_empty
  | append_singleton blocks block induction =>
      rw [List.map_append, List.nodup_append] at distinct
      obtain ⟨earlier, -, apart⟩ := distinct
      have found := induction earlier
      rw [enterAll_append, getElem?_enter, List.filter_append, List.map_append]
      by_cases same : height = block.height
      · subst same
        have absent : block.id ∉ (blocks.filter (·.height = block.height)).map (·.id) := by
          intro member
          obtain ⟨other, inBlocks, sameId⟩ := List.mem_map.mp member
          exact apart _ (List.mem_map_of_mem (List.mem_of_mem_filter inBlocks)) _ (by simp) sameId
        have listed : (enterAll blocks).idsAt block.height =
            (blocks.filter (·.height = block.height)).map (·.id) := by
          unfold idsAt
          rw [found block.height]
          split <;> rename_i ids <;> rw [ids] <;> rfl
        rw [if_pos rfl, listed, addId, if_neg (by simpa using absent)]
        simp only [List.filter_cons, decide_true, if_true, List.filter_nil, List.map_cons,
          List.map_nil]
        cases (blocks.filter (·.height = block.height)).map (·.id) <;> rfl
      · rw [if_neg same, found height]
        simp [Ne.symm same]

/-! What the map knows -/

theorem Coherent.block?_of_accepted (coherent : tree.Coherent)
    (accepted : block ∈ tree.acceptedBlocks) : tree.block? block.id = some block := by
  obtain ⟨id, -, found⟩ := mem_acceptedBlocks.mp accepted
  rwa [coherent.numbered found]

theorem Coherent.map_id_acceptedBlocks (coherent : tree.Coherent) :
    tree.acceptedBlocks.map (·.id) = tree.accepted := by
  unfold acceptedBlocks
  rw [List.map_filterMap]
  have named : ∀ id ∈ tree.accepted, (tree.block? id).map (·.id) = some id := by
    intro id listed
    obtain ⟨block, found, -⟩ := coherent.valid id listed
    rw [found, Option.map_some, coherent.numbered found]
  rw [List.filterMap_congr named, List.filterMap_some]

theorem Coherent.getElem?_heightIndex (coherent : tree.Coherent) (height : Nat) :
    tree.heightIndex[height]? =
      match (tree.blocksAtHeight height).map (·.id) with
      | [] => none
      | first :: rest => some (first :: rest) :=
  getElem?_enterAll (by rw [coherent.map_id_acceptedBlocks]; exact coherent.distinct) height

theorem Coherent.idsAt_heightIndex (coherent : tree.Coherent) (height : Nat) :
    tree.heightIndex.idsAt height = (tree.blocksAtHeight height).map (·.id) := by
  unfold idsAt
  rw [coherent.getElem?_heightIndex]
  split <;> rename_i ids <;> rw [ids] <;> rfl

theorem Coherent.mem_heightIndex (coherent : tree.Coherent) {height : Nat} :
    height ∈ tree.heightIndex ↔ tree.blocksAtHeight height ≠ [] := by
  rw [Std.ExtTreeMap.mem_iff_isSome_getElem?, coherent.getElem?_heightIndex, ne_eq,
    ← List.map_eq_nil_iff (f := (·.id))]
  split <;> rename_i ids <;> simp [ids]

theorem Coherent.mem_idsAt (coherent : tree.Coherent) (found : tree.block? id = some block) :
    id ∈ tree.heightIndex.idsAt block.height ↔ id ∈ tree.accepted := by
  rw [coherent.idsAt_heightIndex, List.mem_map]
  constructor
  · rintro ⟨other, member, rfl⟩
    rw [← coherent.map_id_acceptedBlocks]
    exact List.mem_map_of_mem (mem_blocksAtHeight.mp member).1
  · intro listed
    exact ⟨block, mem_blocksAtHeight.mpr ⟨mem_acceptedBlocks.mpr ⟨id, listed, found⟩, rfl⟩,
      coherent.numbered found⟩

/-! What happens to the map -/

theorem heightIndex_new (payload : β) :
    (new payload).heightIndex = enter ∅ 0 genesisId := rfl

theorem acceptedBlocks_receive (tree : BlockTree β) (node id : Nat) :
    (tree.receive node id).acceptedBlocks =
      if tree.accepted.contains id then tree.acceptedBlocks
      else tree.acceptedBlocks ++ (tree.block? id).toList := by
  have same : (tree.receive node id).block? = tree.block? := rfl
  rw [acceptedBlocks, same]
  unfold receive
  dsimp only
  split
  · rfl
  · rw [List.filterMap_append, acceptedBlocks]
    cases found : tree.block? id <;> simp [found]

theorem Coherent.heightIndex_receive (coherent : tree.Coherent)
    (found : tree.block? id = some block) (node : Nat) :
    (tree.receive node id).heightIndex = tree.heightIndex.enter block.height id := by
  by_cases listed : id ∈ tree.accepted
  · -- Another node has accepted the block before, so it is in the map already.
    have same : (tree.receive node id).acceptedBlocks = tree.acceptedBlocks := by
      rw [acceptedBlocks_receive, if_pos (List.contains_iff_mem.mpr listed)]
    have entered := (coherent.mem_idsAt found).mpr listed
    refine Std.ExtTreeMap.ext_getElem? fun height => ?_
    rw [getElem?_enter, addId, if_pos (List.contains_iff_mem.mpr entered), heightIndex, same,
      ← heightIndex]
    split_ifs with isHeight
    · subst isHeight
      unfold idsAt at entered ⊢
      cases under : tree.heightIndex[block.height]? with
      | none => simp [under] at entered
      | some ids => rfl
    · rfl
  · have longer : (tree.receive node id).acceptedBlocks = tree.acceptedBlocks ++ [block] := by
      rw [acceptedBlocks_receive, if_neg (by simpa using listed), found, Option.toList_some]
    rw [heightIndex, longer, enterAll_append, coherent.numbered found, heightIndex]

theorem Step.heightIndex {acceptance : Option (Nat × Nat)} (step : Step acceptance tree after)
    (coherent : tree.Coherent) :
    match acceptance with
    | none => after.heightIndex = tree.heightIndex
    | some (_, id) => ∃ block, tree.block? id = some block ∧
        after.heightIndex = tree.heightIndex.enter block.height id := by
  cases step with
  | same | joined => rfl
  | created inserted => exact congrArg enterAll (coherent.acceptedBlocks_insert inserted)
  | @accepted tree node id block head known found valid new alone =>
      refine ⟨block, found, ?_⟩
      rw [coherent.numbered found]
      exact coherent.heightIndex_receive found node

/-! What is asked of the map -/

theorem Coherent.blocksAtHeight_eq (coherent : tree.Coherent) (height : Nat) :
    tree.blocksAtHeight height = (tree.heightIndex.idsAt height).filterMap tree.block? := by
  rw [coherent.idsAt_heightIndex, List.filterMap_map]
  have found : ∀ block ∈ tree.blocksAtHeight height, (tree.block? ∘ (·.id)) block = some block :=
    fun block member => coherent.block?_of_accepted (mem_blocksAtHeight.mp member).1
  rw [List.filterMap_congr found, List.filterMap_some]

theorem Coherent.maxHeight_eq (coherent : tree.Coherent) :
    tree.maxHeight = (tree.heightIndex.maxKey?).getD 0 := by
  obtain ⟨inhabited, greatest⟩ := coherent.highest
  have isMax : tree.heightIndex.maxKey? = some tree.maxHeight := by
    refine Std.ExtTreeMap.maxKey?_eq_some_iff_mem_and_forall.mpr
      ⟨coherent.mem_heightIndex.mpr inhabited, fun height member => ?_⟩
    exact Nat.isLE_compare.mpr (greatest height (coherent.mem_heightIndex.mp member))
  rw [isMax, Option.getD_some]

theorem Coherent.acceptedBlock?_eq (coherent : tree.Coherent) (id : Nat) :
    tree.acceptedBlock? id = (tree.block? id).filter fun block =>
      (tree.heightIndex.idsAt block.height).contains id := by
  unfold acceptedBlock?
  cases found : tree.block? id with
  | none => exact ite_self none
  | some block =>
      simp only [Option.filter_some, List.contains_iff_mem, coherent.mem_idsAt found]

theorem Coherent.conflicting_eq (coherent : tree.Coherent) (block : Block β) :
    tree.conflicting block = block.producer.bind fun producer =>
      ((tree.heightIndex.idsAt block.height).find? fun other =>
        other ≠ block.id ∧ (tree.block? other).bind (·.producer) = some producer).map
          fun other => (producer, other) := by
  unfold conflicting
  cases block.producer with
  | none => rfl
  | some producer =>
      have asked : ∀ other ∈ tree.blocksAtHeight block.height,
          (tree.block? other.id).bind (·.producer) = other.producer := by
        intro other member
        rw [coherent.block?_of_accepted (mem_blocksAtHeight.mp member).1, Option.bind_some]
      dsimp only
      rw [coherent.idsAt_heightIndex, Option.bind_some, List.find?_map, Option.map_map,
        ← List.head?_filter, ← List.head?_filter]
      refine congrArg (fun rivals => Option.map _ (List.head? rivals)) (List.filter_congr ?_)
      intro other member
      simp only [Function.comp_apply, asked other member]

end BlockTree

end Simnet
