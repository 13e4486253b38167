import Mathlib.Data.Set.Function
import Simnet.Proofs.DelayBounds
import Simnet.Proofs.Heads
import Simnet.Proofs.OverlayBuilding

namespace Simnet

/-! Estimates of delays. A sample draws a pair of nodes and then the delay between them, all
from the generator that the sample before has left. Every sample finds its pair, so an estimate
is of as many delays as it was asked for. -/

/-! Summaries -/

def Latency.InRange (latency : Latency) : Prop :=
  ∀ sender receiver rng, (latency.delay sender receiver rng).1 ≤ maxTime

theorem LatencyModel.InRange.latency {model : LatencyModel} (inRange : model.InRange) :
    model.latency.InRange :=
  fun sender receiver rng => LatencyModel.delay_le sender receiver rng inRange

def maxDoubleWord : Nat := 0xFFFFFFFFFFFFFFFFFFFFFFFFFFFFFFFF

structure Tally where
  samples : Nat := 0
  min : Nat := maxTime
  max : Nat := 0
  total : Nat := 0

namespace Tally

def including (tally : Tally) (delay : Nat) : Tally where
  samples := tally.samples + 1
  min := Min.min tally.min delay
  max := Max.max tally.max delay
  total := tally.total + delay

/-- Counts one more delay; nothing if the number of delays is no word any more, or their sum no
double word. -/
def count? (tally : Tally) (delay : Nat) : Option Tally :=
  if tally.samples + 1 ≤ maxTime ∧ tally.total + delay ≤ maxDoubleWord then
    some (tally.including delay)
  else
    none

def summary (tally : Tally) : Option DelaySummary :=
  if 0 < tally.samples then
    some {
      samples := tally.samples
      min := tally.min
      average := Float.ofNat tally.total / Float.ofNat tally.samples
      max := tally.max }
  else
    none

/-- The sum is at most what as many of the greatest delays would make. -/
def Bounded (tally : Tally) : Prop :=
  tally.total ≤ tally.samples * maxTime

variable {tally : Tally} {delay : Nat}

theorem Bounded.including (bounded : tally.Bounded) (word : delay ≤ maxTime) :
    (tally.including delay).Bounded := by
  rw [Bounded, Tally.including, Nat.succ_mul]
  exact Nat.add_le_add bounded word

theorem Bounded.count?_eq (bounded : tally.Bounded) (few : tally.samples + 1 ≤ maxTime)
    (word : delay ≤ maxTime) : tally.count? delay = some (tally.including delay) := by
  have fits : tally.total + delay ≤ maxDoubleWord :=
    calc tally.total + delay
      _ ≤ (tally.samples + 1) * maxTime := bounded.including word
      _ ≤ maxTime * maxTime := Nat.mul_le_mul_right maxTime few
      _ ≤ maxDoubleWord := by decide
  exact if_pos ⟨few, fits⟩

theorem Bounded.foldlM_count? {delays : List Nat} (bounded : tally.Bounded)
    (few : tally.samples + delays.length ≤ maxTime)
    (words : ∀ delay ∈ delays, delay ≤ maxTime) :
    delays.foldlM count? tally = some (delays.foldl Tally.including tally) := by
  induction delays generalizing tally with
  | nil => rfl
  | cons delay rest induction =>
      rw [List.length_cons] at few
      obtain ⟨word, others⟩ := List.forall_mem_cons.mp words
      have fewer : (tally.including delay).samples + rest.length ≤ maxTime := by
        simp only [Tally.including]
        omega
      rw [List.foldlM_cons, bounded.count?_eq (by omega) word]
      exact induction (bounded.including word) fewer others

theorem foldl_including (delays : List Nat) (tally : Tally) :
    delays.foldl including tally = {
      samples := tally.samples + delays.length
      min := delays.foldl Min.min tally.min
      max := delays.foldl Max.max tally.max
      total := tally.total + delays.foldr (· + ·) 0 } := by
  induction delays generalizing tally with
  | nil => rfl
  | cons delay rest induction =>
      rw [List.foldl_cons, induction]
      simp only [including, List.length_cons, List.foldl_cons, List.foldr_cons, Tally.mk.injEq,
        true_and]
      omega

end Tally

namespace DelaySummary

/-- The summary as it is computed delay by delay, with every addition checked. -/
def ofDelays? (delays : List Nat) : Option (Option DelaySummary) :=
  (delays.foldlM Tally.count? {}).map Tally.summary

theorem ofDelays?_eq {delays : List Nat} (few : delays.length ≤ maxTime)
    (words : ∀ delay ∈ delays, delay ≤ maxTime) :
    ofDelays? delays = some (ofDelays delays) := by
  have bounded : Tally.Bounded {} := Nat.zero_le _
  rw [ofDelays?, bounded.foldlM_count? (by simpa using few) words, Option.map_some,
    Tally.foldl_including]
  cases delays with
  | nil => rfl
  | cons first rest =>
      -- The first delay takes the place of what the tally starts from.
      have least : Min.min maxTime first = first :=
        Nat.min_eq_right (words first List.mem_cons_self)
      simp [Tally.summary, ofDelays, least]

structure Summarises (summary : DelaySummary) (delays : List Nat) : Prop where
  samples : summary.samples = delays.length
  min_mem : summary.min ∈ delays
  min_le : ∀ delay ∈ delays, summary.min ≤ delay
  max_mem : summary.max ∈ delays
  le_max : ∀ delay ∈ delays, delay ≤ summary.max
  average : summary.average = Float.ofNat delays.sum / Float.ofNat delays.length

theorem summarises_of_ofDelays {delays : List Nat} {summary : DelaySummary}
    (made : ofDelays delays = some summary) : summary.Summarises delays := by
  cases delays with
  | nil => cases made
  | cons first rest =>
      cases made
      have least : (first :: rest).min? = some (rest.foldl Min.min first) := rfl
      have greatest : (first :: rest).max? = some (rest.foldl Max.max first) := rfl
      obtain ⟨minMember, lower⟩ := List.min?_eq_some_iff.mp least
      obtain ⟨maxMember, upper⟩ := List.max?_eq_some_iff.mp greatest
      exact ⟨rfl, minMember, lower, maxMember, upper, rfl⟩

theorem ofDelays_isSome_iff {delays : List Nat} :
    (ofDelays delays).isSome ↔ 0 < delays.length := by
  cases delays with
  | nil => simp [ofDelays]
  | cons first rest => simp [ofDelays]

end DelaySummary

/-! Pairs of indices -/

/-- What two draws can be, the second of them from one place fewer. -/
def indexDraws (count : Nat) : Set (Nat × Nat) :=
  {draw | draw.1 < count ∧ draw.2 < count - 1}

def differentPairs (count : Nat) : Set (Nat × Nat) :=
  {pair | pair.1 < count ∧ pair.2 < count ∧ pair.1 ≠ pair.2}

/-- The second draw is moved past the first. -/
def pairOf (draw : Nat × Nat) : Nat × Nat :=
  (draw.1, if draw.1 ≤ draw.2 then draw.2 + 1 else draw.2)

theorem pairOf_mapsTo (count : Nat) :
    Set.MapsTo pairOf (indexDraws count) (differentPairs count) := by
  rintro ⟨first, drawn⟩ ⟨firstKnown, drawnKnown⟩
  dsimp only at firstKnown drawnKnown
  simp only [pairOf, differentPairs, Set.mem_ofPred_eq]
  split <;> omega

theorem pairOf_bijOn (count : Nat) :
    Set.BijOn pairOf (indexDraws count) (differentPairs count) := by
  refine ⟨pairOf_mapsTo count, ?_, ?_⟩
  · rintro ⟨first, drawn⟩ _ ⟨other, alsoDrawn⟩ _ same
    simp only [pairOf, Prod.mk.injEq] at same ⊢
    obtain ⟨rfl, moved⟩ := same
    refine ⟨rfl, ?_⟩
    split at moved <;> split at moved <;> omega
  · rintro ⟨first, second⟩ ⟨firstKnown, secondKnown, different⟩
    dsimp only at firstKnown secondKnown different
    refine ⟨(first, if first < second then second - 1 else second), ?_, ?_⟩
    · simp only [indexDraws, Set.mem_ofPred_eq]
      split <;> omega
    · simp only [pairOf, Prod.mk.injEq, true_and]
      split <;> split <;> omega

namespace Network

variable {P : Protocol} {network : Network P}

/-! Samples -/

section Samples

abbrev PairDraw := Rng → Nat × Nat → Rng → Prop

variable {draws : PairDraw} {sample : Rng → Option Nat × Rng} {possible : Prop}
variable {eligible : Set (Nat × Nat)} {estimate : Nat → Rng → Option DelaySummary × Rng}

/-- One delay after the other, each between the nodes of a pair that was drawn for it. -/
inductive Sampled (network : Network P) (draws : PairDraw) :
    Rng → List (Nat × Nat) → List Nat → Rng → Prop
  | done (rng : Rng) : Sampled network draws rng [] [] rng
  | next {rng drawn after stop : Rng} {pair : Nat × Nat} {sender receiver : Node P}
      {delay : Nat} {pairs : List (Nat × Nat)} {delays : List Nat}
      (selected : draws rng pair drawn)
      (found : network.node? pair.1 = some sender)
      (alsoFound : network.node? pair.2 = some receiver)
      (delayed : network.latency.delay sender.info receiver.info drawn = (delay, after))
      (rest : Sampled network draws after pairs delays stop) :
      Sampled network draws rng (pair :: pairs) (delay :: delays) stop

theorem Sampled.length_eq {rng stop : Rng} {pairs : List (Nat × Nat)} {delays : List Nat}
    (sampled : network.Sampled draws rng pairs delays stop) : delays.length = pairs.length := by
  induction sampled with
  | done _ => rfl
  | next _ _ _ _ _ induction => rw [List.length_cons, List.length_cons, induction]

theorem Sampled.forall_eligible {rng stop : Rng} {pairs : List (Nat × Nat)} {delays : List Nat}
    (fit : ∀ rng pair after, draws rng pair after → pair ∈ eligible)
    (sampled : network.Sampled draws rng pairs delays stop) : ∀ pair ∈ pairs, pair ∈ eligible := by
  induction sampled with
  | done _ => nofun
  | next selected _ _ _ _ induction =>
      exact List.forall_mem_cons.mpr ⟨fit _ _ _ selected, induction⟩

theorem Sampled.forall_delays {good : Nat → Prop} {rng stop : Rng} {pairs : List (Nat × Nat)}
    {delays : List Nat}
    (all : ∀ sender receiver rng, good (network.latency.delay sender receiver rng).1)
    (sampled : network.Sampled draws rng pairs delays stop) : ∀ delay ∈ delays, good delay := by
  induction sampled with
  | done _ => nofun
  | @next _ drawn _ _ _ sender receiver _ _ _ _ _ _ delayed _ induction =>
      have taken := all sender.info receiver.info drawn
      rw [delayed] at taken
      exact List.forall_mem_cons.mpr ⟨taken, induction⟩

/-- A sample always finds a pair, and takes the delay between its nodes. -/
def Samples (network : Network P) (draws : PairDraw) (sample : Rng → Option Nat × Rng) : Prop :=
  ∀ rng, ∃ pair drawn sender receiver, draws rng pair drawn ∧
    network.node? pair.1 = some sender ∧ network.node? pair.2 = some receiver ∧
    sample rng =
      ((some (network.latency.delay sender.info receiver.info drawn).1),
        (network.latency.delay sender.info receiver.info drawn).2)

theorem Samples.collect (samples : network.Samples draws sample) (count : Nat) (rng : Rng) :
    ∃ pairs, pairs.length = count ∧
      network.Sampled draws rng pairs (collectSamples sample count rng).1
        (collectSamples sample count rng).2 := by
  induction count generalizing rng with
  | zero => exact ⟨[], rfl, .done rng⟩
  | succ count induction =>
      obtain ⟨pair, drawn, sender, receiver, selected, found, alsoFound, taken⟩ := samples rng
      obtain ⟨pairs, length, rest⟩ :=
        induction (network.latency.delay sender.info receiver.info drawn).2
      refine ⟨pair :: pairs, congrArg (· + 1) length, ?_⟩
      rw [collectSamples, taken]
      exact .next selected found alsoFound rfl rest

/-- What an estimate is. There is none just when no pair can be drawn or none is asked for; else
it is of as many delays as were asked for, between eligible pairs. -/
structure Estimates (network : Network P) (possible : Prop) (draws : PairDraw)
    (eligible : Set (Nat × Nat)) (estimate : Nat → Rng → Option DelaySummary × Rng) : Prop where
  isSome_iff : ∀ samples scratch, (estimate samples scratch).1.isSome ↔ possible ∧ 0 < samples
  summarises : ∀ samples scratch summary after,
    estimate samples scratch = (some summary, after) →
      ∃ pairs delays, network.Sampled draws scratch pairs delays after ∧
        delays.length = samples ∧ (∀ pair ∈ pairs, pair ∈ eligible) ∧
        summary.Summarises delays ∧
        (network.latency.InRange → samples ≤ maxTime →
          DelaySummary.ofDelays? delays = some (some summary))

theorem Samples.estimates (samples : possible → network.Samples draws sample)
    (fit : possible → ∀ rng pair after, draws rng pair after → pair ∈ eligible)
    (collected : possible → ∀ count scratch, estimate count scratch =
      (DelaySummary.ofDelays (collectSamples sample count scratch).1,
        (collectSamples sample count scratch).2))
    (refused : ¬ possible → ∀ count scratch, (estimate count scratch).1 = none) :
    network.Estimates possible draws eligible estimate := by
  constructor
  · intro count scratch
    by_cases isPossible : possible
    · obtain ⟨pairs, length, sampled⟩ := (samples isPossible).collect count scratch
      rw [collected isPossible, DelaySummary.ofDelays_isSome_iff, sampled.length_eq, length]
      exact (and_iff_right isPossible).symm
    · rw [refused isPossible]
      exact iff_of_false nofun fun both => isPossible both.1
  · intro count scratch summary after estimated
    have isPossible : possible := by
      by_contra impossible
      have none := refused impossible count scratch
      rw [estimated] at none
      cases none
    obtain ⟨pairs, length, sampled⟩ := (samples isPossible).collect count scratch
    rw [collected isPossible, Prod.mk.injEq] at estimated
    obtain ⟨made, rfl⟩ := estimated
    have count_eq := sampled.length_eq.trans length
    refine ⟨pairs, _, sampled, count_eq, sampled.forall_eligible (fit isPossible),
      DelaySummary.summarises_of_ofDelays made, fun inRange few => ?_⟩
    rw [DelaySummary.ofDelays?_eq (count_eq.trans_le few) (sampled.forall_delays inRange), made]

end Samples

/-! Between any two nodes -/

def DrawsIndices (network : Network P) : PairDraw := fun rng pair after =>
  ∃ first second middle, rng.below .double network.nodeCount = (first, middle) ∧
    middle.below .double (network.nodeCount - 1) = (second, after) ∧
    pair = pairOf (first, second)

theorem DrawsIndices.different {rng after : Rng} {pair : Nat × Nat}
    (many : 2 ≤ network.nodeCount) (drawn : network.DrawsIndices rng pair after) :
    pair ∈ differentPairs network.nodeCount := by
  obtain ⟨first, second, middle, firstDrawn, secondDrawn, rfl⟩ := drawn
  have firstKnown : first < network.nodeCount := Rng.lt_of_below (by omega) firstDrawn
  have secondKnown : second < network.nodeCount - 1 := Rng.lt_of_below (by omega) secondDrawn
  exact pairOf_mapsTo network.nodeCount ⟨firstKnown, secondKnown⟩

theorem getElem?_nodeInfos (network : Network P) (id : Nat) :
    network.nodeInfos[id]? = (network.node? id).map (·.info) :=
  List.getElem?_map

theorem length_nodeInfos (network : Network P) : network.nodeInfos.length = network.nodeCount :=
  List.length_map _

theorem samples_samplePair (many : 2 ≤ network.nodeCount) :
    network.Samples network.DrawsIndices
      (network.latency.samplePair network.nodeInfos) := by
  intro rng
  rcases drawn : rng.below .double network.nodeCount with ⟨first, middle⟩
  rcases alsoDrawn : middle.below .double (network.nodeCount - 1) with ⟨second, after⟩
  have selected : network.DrawsIndices rng (pairOf (first, second)) after :=
    ⟨first, second, middle, drawn, alsoDrawn, rfl⟩
  obtain ⟨firstKnown, secondKnown, -⟩ := selected.different many
  obtain ⟨sender, found⟩ : ∃ node, network.node? (pairOf (first, second)).1 = some node :=
    ⟨_, List.getElem?_eq_getElem firstKnown⟩
  obtain ⟨receiver, alsoFound⟩ : ∃ node, network.node? (pairOf (first, second)).2 = some node :=
    ⟨_, List.getElem?_eq_getElem secondKnown⟩
  refine ⟨_, after, sender, receiver, selected, found, alsoFound, ?_⟩
  simp only [pairOf] at found alsoFound
  simp only [Latency.samplePair, length_nodeInfos, drawn, alsoDrawn, getElem?_nodeInfos, found, alsoFound,
    Option.map_some]

/-! Along links -/

def links (network : Network P) : Set (Nat × Nat) :=
  {pair | network.overlay.areLinked pair.1 pair.2 = true}

def DrawsLink (network : Network P) : PairDraw := fun rng pair after =>
  ∃ middle index, rng.choose network.linkedNodes = (some pair.1, middle) ∧
    middle.below .double (network.overlay.degree pair.1) = (index, after) ∧
    (network.overlay.peers pair.1)[index]? = some pair.2

theorem DrawsLink.linked {rng after : Rng} {pair : Nat × Nat}
    (drawn : network.DrawsLink rng pair after) : pair ∈ network.links := by
  obtain ⟨_, _, -, -, peer⟩ := drawn
  exact List.contains_iff_mem.mpr (List.mem_of_getElem? peer)

theorem mem_linkedNodes {node : Nat} :
    node ∈ network.linkedNodes ↔
      node ∈ idsBelow network.nodeCount ∧ 0 < network.overlay.degree node := by
  simp [linkedNodes]

theorem Wired.linkedNodes_ne_nil_iff (wired : network.Wired) :
    network.linkedNodes ≠ [] ↔ network.nodeCount < maxNodes ∧
      ∃ first second, network.overlay.areLinked first second = true := by
  constructor
  · intro some
    obtain ⟨node, member⟩ := List.exists_mem_of_ne_nil _ some
    obtain ⟨inRange, some⟩ := mem_linkedNodes.mp member
    obtain ⟨peer, linked⟩ := List.exists_mem_of_length_pos some
    refine ⟨Nat.lt_of_le_of_ne wired.few ?_, node, peer, List.contains_iff_mem.mpr linked⟩
    intro full
    rw [full, idsBelow_maxNodes] at inRange
    cases inRange
  · rintro ⟨few, first, second, linked⟩
    have peer : second ∈ network.overlay.peers first := List.contains_iff_mem.mp linked
    have known := wired.known_of_mem_peers (wired.sound.symmetric peer)
    have inRange : first ∈ idsBelow network.nodeCount := by
      rw [idsBelow_of_lt few]
      exact List.mem_range.mpr known
    exact List.ne_nil_of_mem (mem_linkedNodes.mpr ⟨inRange, List.length_pos_of_mem peer⟩)

theorem Wired.samples_sampleLink (wired : network.Wired) (some : network.linkedNodes ≠ []) :
    network.Samples network.DrawsLink (network.sampleLink network.linkedNodes) := by
  intro rng
  obtain ⟨node, member, middle, chosen⟩ := Rng.exists_choose some rng
  obtain ⟨inRange, peered⟩ := mem_linkedNodes.mp member
  have known := lt_of_mem_idsBelow inRange
  rcases drawn : middle.below .double (network.overlay.degree node) with ⟨index, after⟩
  have inside : index < (network.overlay.peers node).length := Rng.lt_of_below peered drawn
  have peer := List.getElem?_eq_getElem inside
  have alsoKnown := wired.known_of_mem_peers (List.getElem_mem inside)
  have found := List.getElem?_eq_getElem known
  have alsoFound := List.getElem?_eq_getElem alsoKnown
  refine ⟨(node, _), after, _, _, ⟨middle, index, chosen, drawn, peer⟩, found, alsoFound, ?_⟩
  have sameDraw : middle.below .double (network.overlay.peers node).length = (index, after) := drawn
  simp only [sampleLink, chosen, sameDraw, peer, Option.bind_some, node?, found, alsoFound]

/-! Of networks -/

theorem estimates_estimateLatency (network : Network P) :
    network.Estimates (2 ≤ network.nodeCount) network.DrawsIndices
      (differentPairs network.nodeCount) network.estimateLatency := by
  have length := network.length_nodeInfos
  refine Samples.estimates samples_samplePair (fun many _ _ _ => DrawsIndices.different many)
    (fun many count scratch => ?_) fun few count scratch => ?_
  · rw [estimateLatency, Latency.estimate, if_neg (by omega)]
  · rw [estimateLatency, Latency.estimate, if_pos (by omega)]

theorem Wired.estimates_estimateOverlayLatency (wired : network.Wired) :
    network.Estimates (network.nodeCount < maxNodes ∧
        ∃ first second, network.overlay.areLinked first second = true)
      network.DrawsLink network.links network.estimateOverlayLatency := by
  rw [← wired.linkedNodes_ne_nil_iff]
  refine Samples.estimates wired.samples_sampleLink (fun _ _ _ _ => DrawsLink.linked)
    (fun some count scratch => ?_) fun none count scratch => ?_
  · rw [estimateOverlayLatency, if_neg (by simpa using some)]
  · rw [estimateOverlayLatency, if_pos (by simpa using none)]

theorem ReachedBy.wired {past : List (Moment P)} (reached : network.ReachedBy past) :
    network.Wired := by
  cases reached with
  | life behaviour config latency genesis _ _ lived =>
      exact (Program.past_passes lived).preserves (motive := fun _ network => network.Wired)
        (wired_new config latency genesis) fun _ _ lawful => lawful.wired

/-- Between any two nodes there is an estimate in every network with two nodes, and along links
in every one with a link, unless it has as many nodes as there can be. -/
theorem estimates_sample_pairs (network : Network P) :
    network.Estimates (2 ≤ network.nodeCount) network.DrawsIndices
      (differentPairs network.nodeCount) network.estimateLatency ∧
    Set.BijOn pairOf (indexDraws network.nodeCount) (differentPairs network.nodeCount) ∧
    ∀ past, network.ReachedBy past → network.nodeCount ≤ maxNodes ∧
      network.Estimates (network.nodeCount < maxNodes ∧
          ∃ first second, network.overlay.areLinked first second = true)
        network.DrawsLink network.links network.estimateOverlayLatency :=
  ⟨network.estimates_estimateLatency, pairOf_bijOn network.nodeCount,
    fun _ reached => ⟨reached.wired.few, reached.wired.estimates_estimateOverlayLatency⟩⟩

end Network

namespace relay

def linking : Program relay (Except Error Bool) := do
  let _ ← Program.perform (.addNode (.new ⟨0, 0, none⟩ false) ())
  let _ ← Program.perform (.addNode (.new ⟨3, 4, none⟩ false) ())
  let _ ← Program.perform (.addNode (.new ⟨5, 5, none⟩ false) ())
  Program.perform (.createLink 2 0)

def linkingPast : List (Moment relay) :=
  (linking.record (Network.recordRun behaviour 0) initial).history

def linked : Network relay :=
  stateAfter initial linkingPast

theorem linked_reached : linked.ReachedBy linkingPast :=
  .life behaviour {} (LatencyModel.fixed 2).latency () linking 0 (List.append_nil _).symm

end relay

theorem relay_estimates :
    (relay.linked.estimateLatency 0 (.ofSeed 1)).1.isSome = false ∧
    (relay.linked.estimateLatency 2 (.ofSeed 1)).1.isSome = true ∧
    ∃ summary after,
      relay.linked.estimateOverlayLatency 3 (.ofSeed 1) = (some summary, after) ∧
      summary.samples = 3 ∧ DelaySummary.ofDelays? [2, 2, 2] = some (some summary) := by
  obtain ⟨anywhere, -, along⟩ := relay.linked.estimates_sample_pairs
  obtain ⟨-, links⟩ := along relay.linkingPast relay.linked_reached
  have many : 2 ≤ relay.linked.nodeCount := by decide +kernel
  have few : relay.linked.nodeCount < Network.maxNodes := by decide +kernel
  have isLinked : relay.linked.overlay.areLinked 0 2 = true := by decide +kernel
  refine ⟨?_, (anywhere.isSome_iff 2 _).mpr ⟨many, by decide⟩, ?_⟩
  · rw [← Bool.not_eq_true, anywhere.isSome_iff]
    exact fun both => absurd both.2 (Nat.lt_irrefl 0)
  obtain ⟨summary, made⟩ := Option.isSome_iff_exists.mp
    ((links.isSome_iff 3 (.ofSeed 1)).mpr ⟨⟨few, 0, 2, isLinked⟩, by decide⟩)
  obtain ⟨pairs, delays, sampled, count, -, summarises, exact⟩ :=
    links.summarises 3 (.ofSeed 1) summary _ (Prod.ext made rfl)
  have delayed : ∀ sender receiver rng, (relay.linked.latency.delay sender receiver rng).1 = 2 :=
    fun _ _ _ => rfl
  obtain rfl : delays = [2, 2, 2] :=
    List.eq_replicate_iff.mpr ⟨count, sampled.forall_delays delayed⟩
  have inRange : (LatencyModel.fixed 2).InRange := by simp [LatencyModel.InRange, maxTime]
  exact ⟨summary, _, Prod.ext made rfl, summarises.samples, exact inRange.latency (by decide)⟩

def relay.pairing (count : Nat) : Program relay (Except Error Bool) :=
  (relay.crowding count).bind fun _ => Program.perform (.createLink 0 1)

theorem relay.Crowd.exec_pairing {run : Runner relay} {start network : Network relay}
    {count : Nat} (executed : (relay.crowding count).exec run start = some ((), network))
    (crowd : relay.Crowd count network) (several : 1 < count) :
    (relay.pairing count).exec run start =
      some (.ok true, { network with overlay := network.overlay.link 0 1 }) := by
  have valid : network.checkPair 0 1 = .ok () := by
    refine Network.checkPair_eq_ok_iff.mpr ⟨?_, ?_, Nat.zero_ne_one⟩ <;>
    · rw [crowd.nodeCount]
      omega
  have unlinked : network.overlay.areLinked 0 1 = false := by
    have alone := List.eq_nil_of_length_eq_zero (crowd.degree 0)
    rw [Overlay.areLinked, alone]
    rfl
  have linked : network.createLink 0 1 =
      (.ok true, { network with overlay := network.overlay.link 0 1 }) := by
    unfold Network.createLink
    rw [valid, unlinked]
    rfl
  rw [relay.pairing, Program.exec_bind, executed]
  exact (Program.exec_perform (P := relay) (.createLink 0 1) run network).trans
    (congrArg some linked)

theorem relay_crowd_unestimated :
    ∃ network, (relay.pairing Network.maxNodes).exec (Network.runUntil relay.behaviour 0)
        relay.initial = some (.ok true, network) ∧
      network.nodeCount = 4294967296 ∧
      network.overlay.areLinked 0 1 = true ∧
      (network.estimateOverlayLatency 1 (.ofSeed 1)).1 = none := by
  obtain ⟨network, executed, crowd⟩ := relay.exists_crowd
  have listed : network.overlay.nodeCount = Network.maxNodes := by
    rw [Overlay.nodeCount, crowd.unlinked, List.length_replicate]
  have nobody : idsBelow network.nodeCount = [] := by
    rw [crowd.nodeCount, idsBelow_maxNodes]
  refine ⟨_, crowd.exec_pairing executed (by decide), crowd.nodeCount, ?_, ?_⟩
  · refine List.contains_iff_mem.mpr ((Overlay.mem_peers_link ?_ ?_).mpr (.inr (.inl ⟨rfl, rfl⟩)))
    · rw [listed]
      decide
    · rw [listed]
      decide
  · have none : { network with overlay := network.overlay.link 0 1 }.linkedNodes = [] := by
      rw [Network.linkedNodes]
      change (idsBelow network.nodeCount).filter _ = []
      rw [nobody, List.filter_nil]
    rw [Network.estimateOverlayLatency, none]
    rfl

end Simnet
