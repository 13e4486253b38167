import Simnet.Proofs.Flow

namespace Simnet

/-! Links go both ways. Every operation that changes the overlay enters or removes a link
in the lists of both of its ends, so in every network that a life leads to the peers of a
node are different nodes that name it among their own. -/

namespace Rng

theorem mem_of_choose {α : Type} {items : List α} {rng after : Rng} {item : α}
    (chosen : rng.choose items = (some item, after)) : item ∈ items := by
  cases items with
  | nil => cases chosen
  | cons first rest =>
      simp only [choose, Prod.mk.injEq, Option.some.injEq] at chosen
      obtain ⟨rfl, -⟩ := chosen
      cases found : (first :: rest)[(below .single (rest.length + 1) rng).1]? with
      | none => exact List.mem_cons_self
      | some item => exact List.mem_of_getElem? found

end Rng

/-! Ranges of ids -/

theorem lt_of_mem_idsBelow {count id : Nat} (inRange : id ∈ idsBelow count) : id < count :=
  Nat.lt_of_lt_of_le (List.mem_range.mp inRange) (Nat.mod_le count _)

theorem idsBelow_of_lt {count : Nat} (few : count < Network.maxNodes) :
    idsBelow count = List.range count :=
  congrArg List.range (Nat.mod_eq_of_lt few)

theorem idsBelow_maxNodes : idsBelow Network.maxNodes = [] := rfl

namespace Overlay

@[simp] theorem mem_addPeer {peers : List Nat} {peer other : Nat} :
    other ∈ addPeer peers peer ↔ other ∈ peers ∨ other = peer := by
  unfold addPeer
  split
  · rename_i present
    rw [List.contains_iff_mem] at present
    constructor
    · exact .inl
    · rintro (member | rfl)
      · exact member
      · exact present
  · simp

theorem nodup_addPeer {peers : List Nat} (distinct : peers.Nodup) (peer : Nat) :
    (addPeer peers peer).Nodup := by
  unfold addPeer
  split
  · exact distinct
  · rename_i absent
    rw [List.contains_iff_mem] at absent
    rw [List.nodup_append]
    refine ⟨distinct, by simp, ?_⟩
    rintro other member _ last rfl
    rw [List.mem_singleton] at last
    subst last
    exact absent member

@[simp] theorem nodeCount_modifyPeers (overlay : Overlay) (node : Nat)
    (change : List Nat → List Nat) :
    (overlay.modifyPeers node change).nodeCount = overlay.nodeCount :=
  List.length_modify ..

@[simp] theorem nodeCount_link (overlay : Overlay) (first second : Nat) :
    (overlay.link first second).nodeCount = overlay.nodeCount := by
  simp [link]

@[simp] theorem nodeCount_unlink (overlay : Overlay) (first second : Nat) :
    (overlay.unlink first second).nodeCount = overlay.nodeCount := by
  simp [unlink]

theorem peers_modifyPeers_self {overlay : Overlay} {node : Nat}
    (known : node < overlay.nodeCount) (change : List Nat → List Nat) :
    (overlay.modifyPeers node change).peers node = change (overlay.peers node) := by
  have inRange : node < overlay.peerLists.length := known
  simp [peers, peers?, modifyPeers, List.getElem?_eq_getElem inRange]

theorem peers_modifyPeers_of_ne (overlay : Overlay) {node other : Nat}
    (different : node ≠ other) (change : List Nat → List Nat) :
    (overlay.modifyPeers node change).peers other = overlay.peers other := by
  simp [peers, peers?, modifyPeers, different]

@[simp] theorem peers_addNode (overlay : Overlay) (node : Nat) :
    overlay.addNode.peers node = overlay.peers node := by
  unfold peers peers? addNode
  rw [List.getElem?_append]
  split
  · rfl
  · rename_i beyond
    rw [List.getElem?_eq_none (Nat.not_lt.mp beyond)]
    cases node - overlay.peerLists.length with
    | zero => rfl
    | succ _ => rfl

/-- The peers of a node are different, and each has the node among its own. -/
structure Sound (overlay : Overlay) : Prop where
  symmetric : ∀ {node other}, other ∈ overlay.peers node → node ∈ overlay.peers other
  distinct : ∀ node, (overlay.peers node).Nodup

theorem sound_empty : empty.Sound where
  symmetric := by simp [empty, peers, peers?]
  distinct := by simp [empty, peers, peers?]

theorem Sound.of_peers {overlay other : Overlay} (sound : overlay.Sound)
    (same : ∀ node, other.peers node = overlay.peers node) : other.Sound where
  symmetric := by
    intro node peer linked
    rw [same] at linked ⊢
    exact sound.symmetric linked
  distinct := by
    intro node
    rw [same]
    exact sound.distinct node

section Link

variable {overlay : Overlay} {first second : Nat}

theorem mem_peers_link (firstKnown : first < overlay.nodeCount)
    (secondKnown : second < overlay.nodeCount) {node other : Nat} :
    other ∈ (overlay.link first second).peers node ↔
      other ∈ overlay.peers node ∨ (node = first ∧ other = second) ∨
        (node = second ∧ other = first) := by
  have known : second < (overlay.modifyPeers first (addPeer · second)).nodeCount := by
    rw [nodeCount_modifyPeers]
    exact secondKnown
  unfold link
  by_cases isSecond : second = node
  · subst isSecond
    rw [peers_modifyPeers_self known, mem_addPeer]
    by_cases isFirst : first = second
    · subst isFirst
      rw [peers_modifyPeers_self firstKnown, mem_addPeer]
      simp
    · rw [peers_modifyPeers_of_ne overlay isFirst]
      simp [Ne.symm isFirst]
  · rw [peers_modifyPeers_of_ne _ isSecond]
    by_cases isFirst : first = node
    · subst isFirst
      rw [peers_modifyPeers_self firstKnown, mem_addPeer]
      simp [Ne.symm isSecond]
    · rw [peers_modifyPeers_of_ne overlay isFirst]
      simp [Ne.symm isFirst, Ne.symm isSecond]

theorem Sound.link (sound : overlay.Sound) (firstKnown : first < overlay.nodeCount)
    (secondKnown : second < overlay.nodeCount) : (overlay.link first second).Sound where
  symmetric := by
    intro node other linked
    rw [mem_peers_link firstKnown secondKnown] at linked ⊢
    rcases linked with old | ⟨rfl, rfl⟩ | ⟨rfl, rfl⟩
    · exact .inl (sound.symmetric old)
    · exact .inr (.inr ⟨rfl, rfl⟩)
    · exact .inr (.inl ⟨rfl, rfl⟩)
  distinct := by
    have once : ∀ node, ((overlay.modifyPeers first (addPeer · second)).peers node).Nodup := by
      intro node
      by_cases isFirst : first = node
      · subst isFirst
        rw [peers_modifyPeers_self firstKnown]
        exact nodup_addPeer (sound.distinct first) second
      · rw [peers_modifyPeers_of_ne overlay isFirst]
        exact sound.distinct node
    intro node
    unfold Overlay.link
    by_cases isSecond : second = node
    · subst isSecond
      rw [peers_modifyPeers_self (by rwa [nodeCount_modifyPeers])]
      exact nodup_addPeer (once second) first
    · rw [peers_modifyPeers_of_ne _ isSecond]
      exact once node

theorem mem_peers_unlink (sound : overlay.Sound) (firstKnown : first < overlay.nodeCount)
    (secondKnown : second < overlay.nodeCount) (different : first ≠ second)
    {node other : Nat} :
    other ∈ (overlay.unlink first second).peers node ↔
      other ∈ overlay.peers node ∧ ¬ (node = first ∧ other = second) ∧
        ¬ (node = second ∧ other = first) := by
  have known : second < (overlay.modifyPeers first (·.erase second)).nodeCount := by
    rw [nodeCount_modifyPeers]
    exact secondKnown
  unfold unlink
  by_cases isSecond : second = node
  · subst isSecond
    rw [peers_modifyPeers_self known, peers_modifyPeers_of_ne overlay different,
      (sound.distinct second).mem_erase_iff]
    simp [Ne.symm different, and_comm]
  · rw [peers_modifyPeers_of_ne _ isSecond]
    by_cases isFirst : first = node
    · subst isFirst
      rw [peers_modifyPeers_self firstKnown, (sound.distinct first).mem_erase_iff]
      simp [different, and_comm]
    · rw [peers_modifyPeers_of_ne overlay isFirst]
      simp [Ne.symm isFirst, Ne.symm isSecond]

theorem Sound.unlink (sound : overlay.Sound) (firstKnown : first < overlay.nodeCount)
    (secondKnown : second < overlay.nodeCount) (different : first ≠ second) :
    (overlay.unlink first second).Sound where
  symmetric := by
    intro node other linked
    rw [mem_peers_unlink sound firstKnown secondKnown different] at linked ⊢
    obtain ⟨old, notForth, notBack⟩ := linked
    refine ⟨sound.symmetric old, ?_, ?_⟩
    · exact fun back => notBack ⟨back.2, back.1⟩
    · exact fun forth => notForth ⟨forth.2, forth.1⟩
  distinct := by
    intro node
    unfold Overlay.unlink
    by_cases isSecond : second = node
    · subst isSecond
      rw [peers_modifyPeers_self (by rwa [nodeCount_modifyPeers]),
        peers_modifyPeers_of_ne overlay different]
      exact (sound.distinct second).erase first
    · rw [peers_modifyPeers_of_ne _ isSecond]
      by_cases isFirst : first = node
      · subst isFirst
        rw [peers_modifyPeers_self firstKnown]
        exact (sound.distinct first).erase second
      · rw [peers_modifyPeers_of_ne overlay isFirst]
        exact sound.distinct node

end Link

/-! Building makes links only. -/

section Build

variable {motive : Overlay → Prop} {count : Nat}

def KeptByLinks (motive : Overlay → Prop) : Prop :=
  ∀ overlay first second, motive overlay → first < overlay.nodeCount →
    second ∈ overlay.candidates first → motive (overlay.link first second)

theorem mem_candidates {overlay : Overlay} {node other : Nat} :
    other ∈ overlay.candidates node ↔
      other ∈ idsBelow overlay.nodeCount ∧ other ≠ node ∧ other ∉ overlay.peers node := by
  simp [candidates, areLinked]

theorem of_mem_candidates {overlay : Overlay} {node other : Nat}
    (candidate : other ∈ overlay.candidates node) :
    other < overlay.nodeCount ∧ other ≠ node ∧ other ∉ overlay.peers node := by
  obtain ⟨inRange, rest⟩ := mem_candidates.mp candidate
  exact ⟨lt_of_mem_idsBelow inRange, rest⟩

@[simp] theorem nodeCount_linkRandomPeer (overlay : Overlay) (node : Nat) (rng : Rng) :
    (overlay.linkRandomPeer node rng).1.nodeCount = overlay.nodeCount := by
  unfold linkRandomPeer
  split
  · rfl
  · exact nodeCount_link overlay node _

@[simp] theorem nodeCount_raiseDegree (node missing : Nat) (overlay : Overlay) (rng : Rng) :
    (raiseDegree node missing overlay rng).1.nodeCount = overlay.nodeCount := by
  induction missing generalizing overlay rng with
  | zero => rfl
  | succ missing induction =>
      rw [raiseDegree]
      exact (induction _ _).trans (nodeCount_linkRandomPeer ..)

theorem nodeCount_raiseDegrees (degree : Nat) (nodes : List Nat) (overlay : Overlay)
    (rng : Rng) : (raiseDegrees degree nodes overlay rng).1.nodeCount = overlay.nodeCount := by
  induction nodes generalizing overlay rng with
  | nil => rfl
  | cons node rest induction =>
      rw [raiseDegrees]
      exact (induction _ _).trans (nodeCount_raiseDegree ..)

theorem nodeCount_addLinks (missing : Nat) (overlay : Overlay) (rng : Rng) :
    (addLinks missing overlay rng).1.nodeCount = overlay.nodeCount := by
  induction missing generalizing overlay rng with
  | zero => rfl
  | succ missing induction =>
      rw [addLinks]
      split
      · rfl
      · exact (induction _ _).trans (nodeCount_linkRandomPeer ..)

theorem nodeCount_build (config : OverlayConfig) (overlay : Overlay) (rng : Rng) :
    (overlay.build config rng).1.nodeCount = overlay.nodeCount := by
  unfold build
  split
  · exact nodeCount_raiseDegrees ..
  · exact nodeCount_addLinks ..

theorem linkRandomPeer_keeps (kept : KeptByLinks motive) {overlay : Overlay} {node : Nat}
    (known : node < overlay.nodeCount) (rng : Rng) (holds : motive overlay) :
    motive (overlay.linkRandomPeer node rng).1 := by
  unfold linkRandomPeer
  split
  · exact holds
  · rename_i other after chosen
    exact kept overlay node other holds known (Rng.mem_of_choose chosen)

theorem raiseDegree_keeps (kept : KeptByLinks motive) {node : Nat} (missing : Nat)
    {overlay : Overlay} (known : node < overlay.nodeCount) (rng : Rng)
    (holds : motive overlay) : motive (raiseDegree node missing overlay rng).1 := by
  induction missing generalizing overlay rng with
  | zero => exact holds
  | succ missing induction =>
      have still : node < (overlay.linkRandomPeer node rng).1.nodeCount := by
        rwa [nodeCount_linkRandomPeer]
      exact induction still _ (linkRandomPeer_keeps kept known rng holds)

theorem raiseDegrees_keeps (kept : KeptByLinks motive) {degree : Nat} {nodes : List Nat}
    {overlay : Overlay} (known : ∀ node ∈ nodes, node < overlay.nodeCount) (rng : Rng)
    (holds : motive overlay) : motive (raiseDegrees degree nodes overlay rng).1 := by
  induction nodes generalizing overlay rng with
  | nil => exact holds
  | cons node rest induction =>
      obtain ⟨nodeKnown, restKnown⟩ := List.forall_mem_cons.mp known
      rw [raiseDegrees]
      refine induction ?_ _ (raiseDegree_keeps kept _ nodeKnown rng holds)
      rwa [nodeCount_raiseDegree]

theorem addLinks_keeps (kept : KeptByLinks motive) {missing : Nat} {overlay : Overlay}
    (rng : Rng) (holds : motive overlay) : motive (addLinks missing overlay rng).1 := by
  induction missing generalizing overlay rng with
  | zero => exact holds
  | succ missing induction =>
      rw [addLinks]
      split
      · exact holds
      · rename_i node after chosen
        obtain ⟨inRange, -⟩ := List.mem_filter.mp (Rng.mem_of_choose chosen)
        exact induction _ (linkRandomPeer_keeps kept (lt_of_mem_idsBelow inRange) after holds)

theorem build_keeps (kept : KeptByLinks motive) (config : OverlayConfig) {overlay : Overlay}
    (rng : Rng) (holds : motive overlay) : motive (overlay.build config rng).1 := by
  unfold build
  split
  · exact raiseDegrees_keeps kept (fun _ => lt_of_mem_idsBelow) rng holds
  · exact addLinks_keeps kept rng holds

theorem seen_build (config : OverlayConfig) (overlay : Overlay) (rng : Rng) :
    (overlay.build config rng).1.seen = overlay.seen :=
  build_keeps (motive := fun after => after.seen = overlay.seen) (fun _ _ _ same _ _ => same)
    config rng rfl

end Build

end Overlay

/-! The overlay of a whole life -/

section Life

variable {P : Protocol}

namespace Network

/-- The overlay has a list for each node, and its links go both ways. -/
structure Wired (network : Network P) : Prop where
  sound : network.overlay.Sound
  count : network.overlay.nodeCount = network.nodeCount
  few : network.nodeCount ≤ maxNodes

theorem wired_new (config : NetworkConfig) (latency : Latency) (genesis : P.Payload) :
    (new config latency genesis : Network P).Wired where
  sound := Overlay.sound_empty
  count := rfl
  few := Nat.zero_le _

theorem Wired.of_same {before after : Network P} (wired : before.Wired)
    (overlay : after.overlay = before.overlay) (count : after.nodeCount = before.nodeCount) :
    after.Wired where
  sound := by
    rw [overlay]
    exact wired.sound
  count := by
    rw [overlay, count]
    exact wired.count
  few := by
    rw [count]
    exact wired.few

theorem known_of_checkPair {network : Network P} {first second : Nat}
    (valid : network.checkPair first second = .ok ()) :
    first < network.nodeCount ∧ second < network.nodeCount ∧ first ≠ second := by
  unfold checkPair at valid
  cases firstFound : network.node first with
  | error error => simp [firstFound] at valid
  | ok firstNode =>
      cases secondFound : network.node second with
      | error error => simp [firstFound, secondFound] at valid
      | ok secondNode =>
          simp only [firstFound, secondFound] at valid
          refine ⟨lt_nodeCount_of_node? (node_eq_ok_iff.mp firstFound),
            lt_nodeCount_of_node? (node_eq_ok_iff.mp secondFound), ?_⟩
          rintro rfl
          simp at valid

theorem overlay_commitFate (message : P.Message) (sender : Nat) (network : Network P)
    (decision : Nat × Fate) :
    (commitFate message sender network decision).overlay = network.overlay := by
  obtain ⟨receiver, fate⟩ := decision
  cases fate <;> rfl

theorem Change.wired {kept : Prop} {before after : Network P}
    (change : Change kept before after) (wired : before.Wired) : after.Wired := by
  cases change with
  | draw | enlist | divide | heal | insert | receive => exact wired.of_same rfl rfl
  | edit _ => exact wired.of_same rfl (nodeCount_modifyNode ..)
  | settle => exact wired.of_same (overlay_commitFate ..) (nodeCount_commitFate ..)
  | join state early whole room fresh =>
      constructor
      · exact wired.sound.of_peers (Overlay.peers_addNode before.overlay)
      · have count := wired.count
        simp only [Overlay.nodeCount, nodeCount] at count
        simp [joined, Overlay.addNode, Overlay.nodeCount, nodeCount, count]
      · simpa [joined, nodeCount, Nat.add_one_le_iff] using room
  | link valid =>
      obtain ⟨firstKnown, secondKnown, -⟩ := known_of_checkPair valid
      rw [← wired.count] at firstKnown secondKnown
      exact ⟨wired.sound.link firstKnown secondKnown,
        (Overlay.nodeCount_link ..).trans wired.count, wired.few⟩
  | unlink valid =>
      obtain ⟨firstKnown, secondKnown, different⟩ := known_of_checkPair valid
      rw [← wired.count] at firstKnown secondKnown
      exact ⟨wired.sound.unlink firstKnown secondKnown different,
        (Overlay.nodeCount_unlink ..).trans wired.count, wired.few⟩
  | @build config _ =>
      have sound := Overlay.build_keeps (motive := Overlay.Sound)
        (fun _ _ _ sound firstKnown candidate =>
          sound.link firstKnown (Overlay.of_mem_candidates candidate).1)
        config before.rng wired.sound
      exact ⟨sound, (Overlay.nodeCount_build ..).trans wired.count, wired.few⟩
  | mark => exact ⟨wired.sound.of_peers fun _ => rfl, wired.count, wired.few⟩

theorem Changes.wired {kept : Prop} {before after : Network P}
    (changes : Changes kept before after) (wired : before.Wired) : after.Wired := by
  induction changes with
  | refl => exact wired
  | tail _ change induction => exact change.wired induction

end Network

theorem Moment.Lawful.wired {behaviour : Behaviour P} {good : Op P → Prop}
    {moment : Moment P} (lawful : moment.Lawful behaviour good)
    (wired : moment.before.Wired) : moment.after.Wired := by
  cases lawful with
  | operated quiet _ performed =>
      have changes : Network.Changes False _ _ :=
        Network.changes_perform quiet False.elim performed
      exact changes.wired wired
  | began started =>
      obtain ⟨-, -, rfl⟩ := Network.start_eq_ok started
      exact wired.of_same rfl rfl
  | took popped =>
      exact wired.of_same (Network.overlay_countEvent ..) (Network.nodeCount_countEvent ..)
  | rearmed | halted | finished => exact wired.of_same rfl rfl

theorem Program.wired_of_exec {α : Type} {behaviour : Behaviour P} {life : Program P α}
    {fuel : Nat} {network after : Network P} {answer : α} (wired : network.Wired)
    (lived : life.exec (Network.runUntil behaviour fuel) network = some (answer, after)) :
    after.Wired := by
  obtain ⟨stop, passes, ends⟩ :=
    life_obeys (behaviour.all_of_forall fun _ => trivial)
      (life.all_of_forall fun _ => trivial) fuel network
  have result := life.result_record (Network.records_runUntil behaviour fuel) network
  rw [ends answer after (result.trans lived)]
  exact passes.preserves (motive := fun _ network => network.Wired) wired
    fun _ _ lawful before => lawful.wired before

end Life

end Simnet
