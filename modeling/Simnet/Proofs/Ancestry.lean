import Simnet.Proofs.Heads
import Simnet.Proofs.TreeGrowth

namespace Simnet

/-! Questions about ancestors. The walk up the tree stops by comparing heights and not at the
block that is looked for. As heights grow along every way to the genesis block, it answers
whether that block lies on the way, whatever gaps the heights have. -/

namespace BlockTree

variable {β : Type} {tree : BlockTree β} {id parent other : Nat} {block : Block β}
variable {path : List Nat}

/-- The way from a block to the genesis block, the block itself excluded. -/
inductive Way (tree : BlockTree β) : Nat → List Nat → Prop
  | arrived {id : Nat} (root : tree.parent? id = none) : Way tree id []
  | onward {id parent : Nat} {path : List Nat} (child : tree.parent? id = some parent)
      (way : Way tree parent path) : Way tree id (parent :: path)

theorem parent?_eq (found : tree.block? id = some block) : tree.parent? id = block.parent := by
  rw [parent?, found, Option.bind_some]

theorem heightOf_eq (found : tree.block? id = some block) : tree.heightOf id = block.height := by
  simp [heightOf, found]

theorem exists_block_of_lt (known : id < tree.length) : ∃ block, tree.block? id = some block :=
  ⟨_, List.getElem?_eq_getElem known⟩

theorem Lineage.heightOf_lt (lineage : tree.Lineage) (child : tree.parent? id = some parent) :
    tree.heightOf parent < tree.heightOf id := by
  obtain ⟨block, found, names⟩ := Option.bind_eq_some_iff.mp child
  obtain ⟨above, aboveFound, -, lower⟩ := lineage.descends found names
  rwa [heightOf_eq found, heightOf_eq aboveFound]

theorem Way.isChain (way : tree.Way id path) :
    (id :: path).IsChain fun child parent => tree.parent? child = some parent := by
  induction way with
  | arrived root => exact List.isChain_singleton _
  | onward child way induction => exact List.isChain_cons_cons.mpr ⟨child, induction⟩

theorem Way.heights (way : tree.Way id path) (lineage : tree.Lineage) :
    ((id :: path).map tree.heightOf).Pairwise (· > ·) := by
  rw [← List.isChain_iff_pairwise, List.isChain_map]
  exact way.isChain.imp fun _ _ child => lineage.heightOf_lt child

theorem Way.getLast? (way : tree.Way id path) (lineage : tree.Lineage)
    (known : id < tree.length) : (id :: path).getLast? = some genesisId := by
  induction way with
  | arrived root =>
      obtain ⟨block, found⟩ := exists_block_of_lt known
      rw [parent?_eq found, lineage.rooted found] at root
      rw [root, List.getLast?_singleton]
  | onward child way induction =>
      have bounds := lineage.parent?_lt child
      rw [List.getLast?_cons_cons]
      exact induction (by omega)

def Precedes (tree : BlockTree β) : Nat → Nat → Prop :=
  Relation.TransGen fun parent child => tree.parent? child = some parent

theorem Way.mem_iff (way : tree.Way id path) : other ∈ path ↔ tree.Precedes other id := by
  induction way with
  | arrived root =>
      constructor
      · exact nofun
      · intro precedes
        cases precedes with
        | single child | tail _ child =>
            rw [root] at child
            cases child
  | onward child way induction =>
      rw [List.mem_cons, induction]
      constructor
      · rintro (rfl | precedes)
        · exact .single child
        · exact precedes.tail child
      · intro precedes
        cases precedes with
        | single named =>
            rw [child] at named
            cases named
            exact .inl rfl
        | tail precedes named =>
            rw [child] at named
            cases named
            exact .inr precedes

theorem Lineage.pathToGenesis_eq (lineage : tree.Lineage) {fuel : Nat}
    (found : tree.block? id = some block) (enough : id ≤ fuel) :
    ∃ path, tree.pathToGenesis fuel block = .ok path ∧ tree.Way id path := by
  induction fuel generalizing id block with
  | zero =>
      have root := (lineage.rooted found).mpr (Nat.le_zero.mp enough)
      exact ⟨[], rfl, .arrived ((parent?_eq found).trans root)⟩
  | succ fuel induction =>
      cases names : block.parent with
      | none =>
          refine ⟨[], ?_, .arrived ((parent?_eq found).trans names)⟩
          simp only [pathToGenesis, names]
      | some parent =>
          obtain ⟨above, aboveFound, below, -⟩ := lineage.descends found names
          obtain ⟨path, climbed, way⟩ := induction aboveFound (by omega)
          refine ⟨parent :: path, ?_, .onward ((parent?_eq found).trans names) way⟩
          simp only [pathToGenesis, names, block_eq_ok_iff.mpr aboveFound, climbed]

theorem Lineage.ancestry_eq (lineage : tree.Lineage) (known : id < tree.length) :
    ∃ path, tree.ancestry id = .ok (id :: path) ∧ tree.Way id path := by
  obtain ⟨block, found⟩ := exists_block_of_lt known
  obtain ⟨path, climbed, way⟩ := lineage.pathToGenesis_eq found (Nat.le_of_lt known)
  refine ⟨path, ?_, way⟩
  simp only [ancestry, block_eq_ok_iff.mpr found, climbed]

theorem Way.heightOf_lt (way : tree.Way id path) (lineage : tree.Lineage)
    (member : other ∈ path) : tree.heightOf other < tree.heightOf id := by
  have heights := way.heights lineage
  rw [List.map_cons, List.pairwise_cons] at heights
  exact heights.1 _ (List.mem_map_of_mem member)

theorem Lineage.climbs_stop (lineage : tree.Lineage) (coherent : tree.Coherent)
    (way : tree.Way id path) {target : Nat} (found : tree.block? id = some block)
    (notAbove : ¬ tree.heightOf target < tree.heightOf id) (fuel : Nat) :
    tree.climbs target (tree.heightOf target) (fuel + 1) block =
      .ok (decide (target ∈ id :: path)) := by
  -- What lies further up is lower than the target.
  have beyond : target ∉ path := fun member => notAbove (way.heightOf_lt lineage member)
  rw [heightOf_eq found] at notAbove
  rw [climbs, if_neg notAbove, coherent.numbered found]
  simp only [List.mem_cons, beyond, or_false, eq_comm]

/-- The walk is exact, and fuel above the number of the block is enough for it. -/
theorem Lineage.climbs_eq (lineage : tree.Lineage) (coherent : tree.Coherent)
    (way : tree.Way id path) {fuel target : Nat} (found : tree.block? id = some block)
    (enough : id < fuel) :
    tree.climbs target (tree.heightOf target) fuel block =
      .ok (decide (target ∈ id :: path)) := by
  induction way generalizing fuel block with
  | @arrived id root =>
      obtain ⟨fuel, rfl⟩ := Nat.exists_eq_add_of_le' (show 1 ≤ fuel by omega)
      by_cases above : tree.heightOf target < tree.heightOf id
      · have other : target ≠ id := fun same => Nat.lt_irrefl _ (same ▸ above)
        rw [heightOf_eq found] at above
        rw [parent?_eq found] at root
        simp only [climbs, if_pos above, root, List.mem_singleton, other, decide_false]
      · exact lineage.climbs_stop coherent (.arrived root) found above fuel
  | @onward id parent path child way induction =>
      obtain ⟨fuel, rfl⟩ := Nat.exists_eq_add_of_le' (show 1 ≤ fuel by omega)
      by_cases above : tree.heightOf target < tree.heightOf id
      · have other : target ≠ id := fun same => Nat.lt_irrefl _ (same ▸ above)
        rw [heightOf_eq found] at above
        rw [parent?_eq found] at child
        obtain ⟨next, nextFound, below, -⟩ := lineage.descends found child
        have onward := induction nextFound (show parent < fuel by omega)
        simp only [climbs, if_pos above, child, block_eq_ok_iff.mpr nextFound, onward,
          List.mem_cons, other, false_or]
      · exact lineage.climbs_stop coherent (.onward child way) found above fuel

theorem block_eq_error_of_le (unknown : tree.length ≤ id) :
    tree.block id = .error (.unknownBlock id) := by
  have missing : tree.block? id = none := List.getElem?_eq_none unknown
  rw [BlockTree.block, missing]

theorem Lineage.isAncestor_eq (lineage : tree.Lineage) (coherent : tree.Coherent)
    {ancestor : Nat} (known : ancestor < tree.length) (way : tree.Way id path)
    (found : tree.block? id = some block) :
    tree.isAncestor ancestor id = .ok (decide (ancestor ∈ path)) := by
  obtain ⟨target, targetFound⟩ := exists_block_of_lt known
  rw [isAncestor, block_eq_ok_iff.mpr targetFound, block_eq_ok_iff.mpr found]
  dsimp only
  split
  · rename_i same
    have absent : ancestor ∉ path := fun member =>
      Nat.lt_irrefl _ (same ▸ way.heightOf_lt lineage member)
    simp only [absent, decide_false]
  · rename_i different
    rw [← heightOf_eq targetFound,
      lineage.climbs_eq coherent way found (lt_length_of_block? found)]
    simp only [List.mem_cons, different, false_or]

theorem exists_of_isAncestor {ancestor : Nat} {answer : Bool}
    (asked : tree.isAncestor ancestor id = .ok answer) :
    (∃ target, tree.block? ancestor = some target) ∧ ∃ block, tree.block? id = some block := by
  rw [isAncestor] at asked
  split at asked
  · cases asked
  · rename_i target targetFound
    split at asked
    · cases asked
    · rename_i block found
      exact ⟨⟨target, block_eq_ok_iff.mp targetFound⟩, block, block_eq_ok_iff.mp found⟩

theorem Lineage.lt_of_precedes (lineage : tree.Lineage) (precedes : tree.Precedes other id) :
    other < id ∧ id < tree.length := by
  induction precedes with
  | single child => exact lineage.parent?_lt child
  | tail _ child induction =>
      have bounds := lineage.parent?_lt child
      exact ⟨Nat.lt_trans induction.1 bounds.1, bounds.2⟩

theorem Lineage.heightOf_lt_of_precedes (lineage : tree.Lineage)
    (precedes : tree.Precedes other id) : tree.heightOf other < tree.heightOf id := by
  induction precedes with
  | single child => exact lineage.heightOf_lt child
  | tail _ child induction => exact Nat.lt_trans induction (lineage.heightOf_lt child)

theorem Lineage.isAncestor_iff (lineage : tree.Lineage) (coherent : tree.Coherent)
    {ancestor : Nat} :
    tree.isAncestor ancestor id = .ok true ↔ tree.Precedes ancestor id := by
  constructor
  · intro asked
    obtain ⟨⟨target, targetFound⟩, block, found⟩ := exists_of_isAncestor asked
    obtain ⟨path, -, way⟩ := lineage.ancestry_eq (lt_length_of_block? found)
    rw [lineage.isAncestor_eq coherent (lt_length_of_block? targetFound) way found,
      Except.ok.injEq, decide_eq_true_eq] at asked
    exact way.mem_iff.mp asked
  · intro precedes
    obtain ⟨below, known⟩ := lineage.lt_of_precedes precedes
    obtain ⟨block, found⟩ := exists_block_of_lt known
    obtain ⟨path, -, way⟩ := lineage.ancestry_eq known
    rw [lineage.isAncestor_eq coherent (Nat.lt_trans below known) way found,
      decide_eq_true (way.mem_iff.mpr precedes)]

theorem unknown_first {first : Nat} (unknown : tree.length ≤ first) (second : Nat) :
    tree.isAncestor first second = .error (.unknownBlock first) ∧
      tree.hasDirectLink first second = .error (.unknownBlock first) := by
  have missing := block_eq_error_of_le unknown
  constructor
  · rw [isAncestor, missing]
  · rw [hasDirectLink, missing]

theorem unknown_second {first second : Nat} (known : first < tree.length)
    (unknown : tree.length ≤ second) :
    tree.isAncestor first second = .error (.unknownBlock second) ∧
      tree.hasDirectLink first second = .error (.unknownBlock second) := by
  obtain ⟨block, found⟩ := exists_block_of_lt known
  have missing := block_eq_error_of_le unknown
  constructor
  · simp only [isAncestor, block_eq_ok_iff.mpr found, missing]
  · simp only [hasDirectLink, block_eq_ok_iff.mpr found, missing]

theorem Lineage.genesis_precedes (lineage : tree.Lineage) (known : id < tree.length)
    (other : id ≠ genesisId) : tree.Precedes genesisId id := by
  obtain ⟨path, -, way⟩ := lineage.ancestry_eq known
  have last := List.mem_of_getLast? (way.getLast? lineage known)
  rcases List.mem_cons.mp last with same | member
  · exact absurd same.symm other
  · exact way.mem_iff.mp member

theorem Lineage.hasDirectLink_eq (lineage : tree.Lineage) (coherent : tree.Coherent)
    {first second : Nat} {up down : Bool} (above : tree.isAncestor first second = .ok up)
    (below : tree.isAncestor second first = .ok down) :
    tree.hasDirectLink first second = .ok (up || down) := by
  obtain ⟨⟨left, leftFound⟩, right, rightFound⟩ := exists_of_isAncestor above
  simp only [hasDirectLink, block_eq_ok_iff.mpr leftFound, block_eq_ok_iff.mpr rightFound]
  have leftHeight := heightOf_eq leftFound
  have rightHeight := heightOf_eq rightFound
  -- Of two blocks only the lower one can lie above the other.
  split
  · rename_i notHigher
    cases down with
    | false => rw [above, Bool.or_false]
    | true =>
        have lower := lineage.heightOf_lt_of_precedes ((lineage.isAncestor_iff coherent).mp below)
        omega
  · rename_i higher
    cases up with
    | false => rw [below, Bool.false_or]
    | true =>
        have lower := lineage.heightOf_lt_of_precedes ((lineage.isAncestor_iff coherent).mp above)
        omega

theorem Lineage.exists_answer (lineage : tree.Lineage) (coherent : tree.Coherent)
    {ancestor : Nat} (ancestorKnown : ancestor < tree.length) (known : id < tree.length) :
    ∃ answer, tree.isAncestor ancestor id = .ok answer := by
  obtain ⟨block, found⟩ := exists_block_of_lt known
  obtain ⟨path, -, way⟩ := lineage.ancestry_eq known
  exact ⟨_, lineage.isAncestor_eq coherent ancestorKnown way found⟩

theorem Lineage.isAncestor_self_ne (lineage : tree.Lineage) (coherent : tree.Coherent) :
    tree.isAncestor id id ≠ .ok true := by
  rw [ne_eq, lineage.isAncestor_iff coherent]
  exact fun precedes => Nat.lt_irrefl id (lineage.lt_of_precedes precedes).1

theorem Lineage.hasDirectLink_self_ne (lineage : tree.Lineage) (coherent : tree.Coherent) :
    tree.hasDirectLink id id ≠ .ok true := by
  intro linked
  rcases Nat.lt_or_ge id tree.length with known | unknown
  · obtain ⟨answer, asked⟩ := lineage.exists_answer coherent known known
    rw [lineage.hasDirectLink_eq coherent asked asked, Bool.or_self, Except.ok.injEq] at linked
    exact lineage.isAncestor_self_ne coherent (linked ▸ asked)
  · rw [(unknown_first unknown id).2] at linked
    cases linked

end BlockTree

section Ancestry

variable {P : Protocol}

/-- In every network that a life comes to, questions about ancestors are answered for the blocks
that were created, by their ways down to the genesis block. -/
theorem Program.ancestry_exact {α : Type} (behaviour : Behaviour P) (config : NetworkConfig)
    (latency : Latency) (genesis : P.Payload) (life : Program P α) (fuel : Nat)
    {past rest : List (Moment P)}
    (lived : (life.record (Network.recordRun behaviour fuel)
      (.new config latency genesis)).history = past ++ rest)
    (tree : BlockTree P.Payload)
    (reached : tree = (stateAfter (.new config latency genesis) past).tree) :
    (∀ first second, tree.length ≤ first →
      tree.isAncestor first second = .error (.unknownBlock first) ∧
      tree.hasDirectLink first second = .error (.unknownBlock first)) ∧
    (∀ first second, first < tree.length → tree.length ≤ second →
      tree.isAncestor first second = .error (.unknownBlock second) ∧
      tree.hasDirectLink first second = .error (.unknownBlock second)) ∧
    (∀ id < tree.length, ∃ path, tree.ancestry id = .ok (id :: path) ∧
      ((id :: path).IsChain fun child parent => tree.parent? child = some parent) ∧
      (id :: path).getLast? = some genesisId ∧
      ((id :: path).map tree.heightOf).Pairwise (· > ·) ∧
      ∀ ancestor < tree.length,
        tree.isAncestor ancestor id = .ok (decide (ancestor ∈ path))) ∧
    (∀ first second, first < tree.length → second < tree.length →
      ∃ linked, tree.hasDirectLink first second = .ok linked ∧
        tree.hasDirectLink second first = .ok linked ∧
        (linked = true ↔ tree.isAncestor first second = .ok true ∨
          tree.isAncestor second first = .ok true)) ∧
    (∀ id, tree.hasDirectLink id id ≠ .ok true) ∧
    (∀ id < tree.length, id ≠ genesisId → tree.isAncestor genesisId id = .ok true) ∧
    (∀ id, tree.isAncestor id id ≠ .ok true) ∧
    ∀ first second third, tree.isAncestor first second = .ok true →
      tree.isAncestor second third = .ok true → tree.isAncestor first third = .ok true := by
  subst reached
  have passes := past_passes lived
  obtain ⟨-, coherent, -⟩ :=
    passes.receipts rfl (BlockTree.coherent_new genesis) ⟨nofun, nofun, .nil⟩
  have lineage := passes.lineage rfl (BlockTree.lineage_new genesis)
  generalize (stateAfter (.new config latency genesis) past).tree = tree at coherent lineage ⊢
  refine ⟨?_, ?_, ?_, ?_, ?_, ?_, ?_, ?_⟩
  · exact fun first second unknown => BlockTree.unknown_first unknown second
  · exact fun first second known unknown => BlockTree.unknown_second known unknown
  · intro id known
    obtain ⟨path, asked, way⟩ := lineage.ancestry_eq known
    obtain ⟨block, found⟩ := BlockTree.exists_block_of_lt known
    exact ⟨path, asked, way.isChain, way.getLast? lineage known, way.heights lineage,
      fun ancestor ancestorKnown => lineage.isAncestor_eq coherent ancestorKnown way found⟩
  · intro first second firstKnown secondKnown
    obtain ⟨up, above⟩ := lineage.exists_answer coherent firstKnown secondKnown
    obtain ⟨down, below⟩ := lineage.exists_answer coherent secondKnown firstKnown
    refine ⟨up || down, lineage.hasDirectLink_eq coherent above below, ?_, ?_⟩
    · rw [Bool.or_comm]
      exact lineage.hasDirectLink_eq coherent below above
    · rw [above, below, Bool.or_eq_true, Except.ok.injEq, Except.ok.injEq]
  · exact fun id => lineage.hasDirectLink_self_ne coherent
  · intro id known other
    exact (lineage.isAncestor_iff coherent).mpr (lineage.genesis_precedes known other)
  · exact fun id => lineage.isAncestor_self_ne coherent
  · intro first second third
    simp only [lineage.isAncestor_iff coherent]
    exact Relation.TransGen.trans

theorem relay_ancestry_exact :
    (stateAfter relay.initial relay.branched).tree.ancestry 2 = .ok [2, 1, 0] ∧
    (stateAfter relay.initial relay.branched).tree.isAncestor 1 2 = .ok true ∧
    (stateAfter relay.initial relay.branched).tree.isAncestor 3 2 = .ok false ∧
    (stateAfter relay.initial relay.branched).tree.hasDirectLink 2 0 = .ok true ∧
    (stateAfter relay.initial relay.branched).tree.hasDirectLink 2 4 =
      .error (.unknownBlock 4) := by
  obtain ⟨-, unknown, ways, links, -, roots, -⟩ :=
    Program.ancestry_exact relay.behaviour {} (LatencyModel.fixed 2).latency () relay.branching 0
      (List.append_nil relay.branched).symm (stateAfter relay.initial relay.branched).tree rfl
  obtain ⟨path, asked, -, -, -, answers⟩ := ways 2 (by decide)
  obtain ⟨linked, answered, -, exact⟩ := links 2 0 (by decide) (by decide)
  cases asked
  refine ⟨rfl, answers 1 (by decide), answers 3 (by decide), ?_,
    (unknown 2 4 (by decide) (by decide)).2⟩
  rw [answered, exact.mpr (.inr (roots 2 (by decide) (by decide)))]

end Ancestry

end Simnet
